/-
# `UQuic.Wire.FrameParser` — the frame parser

`internal/wire/frame_parser.go`, for every frame that it knows.

    parseNext      skips PADDING, reads a type, and the frame of that type
    parseFrame     dispatches on the type: first the STREAM frames, by a mask, then the
                   others, by their value
    isAllowed…     some frames are errors at some encryption levels

The number of bytes that comes with an error is not used by any caller, and left out.

## What is proved

`parseNext_append`: a frame whose fields are in range is written with as many bytes as
`Length` says, and `ParseNext` takes exactly these bytes for the frame.  The one field
that is lost on the way is the frame type of an application's CONNECTION_CLOSE.
`parseNext_known_iff`: a frame is returned only for a type that is known and its own, unless
a type of several bytes passes the mask of STREAM and what follows is read as such a frame
(`Misread`, and `parseNext_unknown_stream`).
-/
import UQuic.Wire.Frame
import UQuic.Wire.StreamFrame
import UQuic.Wire.DatagramFrame

namespace UQuic.Wire

open List
open QuicVarint (maxVarInt8)

/-! ## Frames -/

/-- `FrameParser`; the ACK frame that it uses over and over is left out. -/
structure FrameParser where
  ackDelayExponent : Nat
  supportsDatagrams : Bool
  deriving DecidableEq, Repr

namespace FrameParser

/-- `Frame`: the frames that the parser knows. -/
inductive Frame
  | ping
  | ack (f : AckFrame)
  | resetStream (f : ResetStreamFrame)
  | stopSending (f : StopSendingFrame)
  | crypto (f : CryptoFrame)
  | newToken (f : NewTokenFrame)
  | stream (f : StreamFrame)
  | maxData (f : MaxDataFrame)
  | maxStreamData (f : MaxStreamDataFrame)
  | maxStreams (f : MaxStreamsFrame)
  | dataBlocked (f : DataBlockedFrame)
  | streamDataBlocked (f : StreamDataBlockedFrame)
  | streamsBlocked (f : StreamsBlockedFrame)
  | newConnectionID (f : NewConnectionIDFrame)
  | retireConnectionID (f : RetireConnectionIDFrame)
  | pathChallenge (f : PathChallengeFrame)
  | pathResponse (f : PathResponseFrame)
  | connectionClose (f : ConnectionCloseFrame)
  | handshakeDone
  | datagram (f : DatagramFrame)
  deriving DecidableEq, Repr

/-- The panic on a number of more than 62 bits. -/
def orPanic : Option (List UInt8) → Except StreamFrame.AppendError (List UInt8)
  | none => .error .tooLarge
  | some b => .ok b

variable {b : List UInt8}

theorem orPanic_eq_ok {o : Option (List UInt8)} (h : orPanic o = .ok b) : o = some b := by
  cases o with
  | none => cases h
  | some c => exact congrArg some (Except.ok.inj h)

def Frame.append (b : List UInt8) : Frame → Except StreamFrame.AppendError (List UInt8)
  | .ping => .ok (b ++ [0x1])
  | .ack f => orPanic (f.append b)
  | .resetStream f => orPanic (f.append b)
  | .stopSending f => orPanic (f.append b)
  | .crypto f => orPanic (f.append b)
  | .newToken f => orPanic (f.append b)
  | .stream f => f.append b
  | .maxData f => orPanic (f.append b)
  | .maxStreamData f => orPanic (f.append b)
  | .maxStreams f => orPanic (f.append b)
  | .dataBlocked f => orPanic (f.append b)
  | .streamDataBlocked f => orPanic (f.append b)
  | .streamsBlocked f => orPanic (f.append b)
  | .newConnectionID f => orPanic (f.append b)
  | .retireConnectionID f => orPanic (f.append b)
  | .pathChallenge f => orPanic (f.append b)
  | .pathResponse f => orPanic (f.append b)
  | .connectionClose f => orPanic (f.append b)
  | .handshakeDone => .ok (b ++ [0x1e])
  | .datagram f => orPanic (f.append b)

/-- `Length`; `none` is the panic on a number of more than 62 bits. -/
def Frame.length : Frame → Option Nat
  | .ping => some 1
  | .ack f => f.length
  | .resetStream f => f.length
  | .stopSending f => f.length
  | .crypto f => f.length
  | .newToken f => f.length
  | .stream f => f.length
  | .maxData f => f.length
  | .maxStreamData f => f.length
  | .maxStreams f => f.length
  | .dataBlocked f => f.length
  | .streamDataBlocked f => f.length
  | .streamsBlocked f => f.length
  | .newConnectionID f => f.length
  | .retireConnectionID f => f.length
  | .pathChallenge f => f.length
  | .pathResponse f => f.length
  | .connectionClose f => f.length
  | .handshakeDone => some 1
  | .datagram f => f.length

/-! ## Parsing -/

/-- Why a frame is rejected. -/
inductive FrameError
  | parse (e : ParseError)
  /-- `%s not allowed at encryption level %s`. -/
  | notAllowed (f : Frame) (encLevel : EncryptionLevel)
  deriving DecidableEq, Repr

/-- `qerr.TransportError` with the code FRAME_ENCODING_ERROR. -/
structure FrameEncodingError where
  frameType : Nat
  err : FrameError
  deriving DecidableEq, Repr

def isAllowedAtEncLevel (f : Frame) : EncryptionLevel → Bool
  | .initial | .handshake =>
    match f with
    | .crypto _ | .ack _ | .connectionClose _ | .ping => true
    | _ => false
  | .zeroRTT =>
    match f with
    | .crypto _ | .ack _ | .connectionClose _ | .newToken _ | .pathResponse _
    | .retireConnectionID _ => false
    | _ => true
  | .oneRTT => true

/-- `parseFrame` before its check: the frame of a type. -/
def parseTyped (p : FrameParser) (encLevel : EncryptionLevel) (typ : Nat) : FrameReader Frame :=
  if typ &&& 0xf8 = 0x8 then .stream <$> StreamFrame.parse typ
  else
    match typ with
    | 0x1 => pure .ping
    | 0x2 | 0x3 => .ack <$> AckFrame.parse typ
        (if encLevel = .oneRTT then p.ackDelayExponent else AckFrame.ackDelayExponent)
    | 0x4 => .resetStream <$> ResetStreamFrame.parse
    | 0x5 => .stopSending <$> StopSendingFrame.parse
    | 0x6 => .crypto <$> Parser.ofOption .eof CryptoFrame.parse
    | 0x7 => .newToken <$> NewTokenFrame.parse
    | 0x10 => .maxData <$> MaxDataFrame.parse
    | 0x11 => .maxStreamData <$> MaxStreamDataFrame.parse
    | 0x12 | 0x13 => .maxStreams <$> MaxStreamsFrame.parse typ
    | 0x14 => .dataBlocked <$> DataBlockedFrame.parse
    | 0x15 => .streamDataBlocked <$> StreamDataBlockedFrame.parse
    | 0x16 | 0x17 => .streamsBlocked <$> StreamsBlockedFrame.parse typ
    | 0x18 => .newConnectionID <$> NewConnectionIDFrame.parse
    | 0x19 => .retireConnectionID <$> RetireConnectionIDFrame.parse
    | 0x1a => .pathChallenge <$> PathChallengeFrame.parse
    | 0x1b => .pathResponse <$> PathResponseFrame.parse
    | 0x1c | 0x1d => .connectionClose <$> ConnectionCloseFrame.parse typ
    | 0x1e => pure .handshakeDone
    | 0x30 | 0x31 =>
      if p.supportsDatagrams then .datagram <$> DatagramFrame.reader typ
      else .fail .unknownFrameType
    | _ => .fail .unknownFrameType

def parseFrame (p : FrameParser) (b : List UInt8) (typ : Nat) (encLevel : EncryptionLevel) :
    Except FrameError (Frame × Nat) :=
  match (p.parseTyped encLevel typ).count b with
  | .error e => .error (.parse e)
  | .ok (f, l) =>
    if isAllowedAtEncLevel f encLevel then .ok (f, l) else .error (.notAllowed f encLevel)

/-- The loop of `parseNext`.  A round takes the bytes of a type, so that the first argument,
the length of the input, is never used up. -/
def parseLoop (p : FrameParser) (encLevel : EncryptionLevel) :
    Nat → List UInt8 → Nat → Except FrameEncodingError (Option Frame × Nat)
  | _, [], parsed => .ok (none, parsed)
  | 0, _ :: _, _ => .error ⟨0, .parse .unexpectedEOF⟩
  | n + 1, x :: b, parsed =>
    match QuicVarint.parse (x :: b) with
    | none => .error ⟨0, .parse .unexpectedEOF⟩
    | some (typ, l) =>
      -- skip PADDING frames
      if typ = 0x0 then parseLoop p encLevel n ((x :: b).drop l) (parsed + l)
      else
        match p.parseFrame ((x :: b).drop l) typ encLevel with
        | .error e => .error ⟨typ, e⟩
        | .ok (f, m) => .ok (some f, parsed + l + m)

/-- `ParseNext`: the frame, if there is one, and how many bytes were read. -/
def parseNext (p : FrameParser) (b : List UInt8) (encLevel : EncryptionLevel) :
    Except FrameEncodingError (Option Frame × Nat) :=
  p.parseLoop encLevel b.length b 0

/-! ## Round trips -/

/-- The fields are in the ranges that the parser checks, with numbers that have an encoding.
An ACK frame is not read back as it was (its delay is rounded), and not treated here. -/
def Frame.InRange : Frame → Prop
  | .ping => True
  | .ack _ => False
  | .resetStream f => f.streamID ≤ maxVarInt8 ∧ f.errorCode ≤ maxVarInt8 ∧ f.finalSize ≤ maxVarInt8
  | .stopSending f => f.streamID ≤ maxVarInt8 ∧ f.errorCode ≤ maxVarInt8
  | .crypto f => f.Encodable
  | .newToken f => f.token ≠ [] ∧ f.token.length ≤ maxVarInt8
  | .stream f => f.InRange
  | .maxData f => f.maximumData ≤ maxVarInt8
  | .maxStreamData f => f.streamID ≤ maxVarInt8 ∧ f.maximumStreamData ≤ maxVarInt8
  | .maxStreams f => f.maxStreamNum ≤ maxStreamCount
  | .dataBlocked f => f.maximumData ≤ maxVarInt8
  | .streamDataBlocked f => f.streamID ≤ maxVarInt8 ∧ f.maximumStreamData ≤ maxVarInt8
  | .streamsBlocked f => f.streamLimit ≤ maxStreamCount
  | .newConnectionID f => f.InRange
  | .retireConnectionID f => f.sequenceNumber ≤ maxVarInt8
  | .pathChallenge _ => True
  | .pathResponse _ => True
  | .connectionClose f => f.InRange
  | .handshakeDone => True
  | .datagram f => f.data.length ≤ maxVarInt8

/-- The frame ends by itself: it has a length field where it may have one. -/
def Frame.Delimited : Frame → Prop
  | .stream f => f.dataLenPresent = true
  | .datagram f => f.dataLenPresent = true
  | _ => True

/-- The frame has no field that is not written: no frame type with an application's error. -/
def Frame.OnWire : Frame → Prop
  | .connectionClose f => f.OnWire
  | _ => True

/-- The frame `f` is written as its type and a body, and the parser of the type takes the body
for `g`. -/
def Frame.ReadAs (p : FrameParser) (encLevel : EncryptionLevel) (f g : Frame)
    (rest : List UInt8) : Prop :=
  ∃ typ body, (0 < typ ∧ typ ≤ 63) ∧ (∀ b, f.append b = .ok (b ++ .ofNat typ :: body)) ∧
    f.length = some (body.length + 1) ∧ (p.parseTyped encLevel typ).Reads body g rest

variable {p : FrameParser} {encLevel : EncryptionLevel} {f g : Frame} {rest : List UInt8}

/-- The frames of one type from what is known about them. -/
theorem Frame.ReadAs.of_roundTrip {α : Type} {append : List UInt8 → Option (List UInt8)}
    {length : Option Nat} {parse : FrameReader α} {a : α} {g : α → Frame} (typ : Nat)
    (h : RoundTrip append length typ parse a rest) (htyp : 0 < typ ∧ typ ≤ 63 := by decide)
    (happ : ∀ b, (g a).append b = orPanic (append b) := by exact fun _ => rfl)
    (hlen : (g a).length = length := by rfl)
    (hparse : p.parseTyped encLevel typ = g <$> parse := by rfl) :
    (g a).ReadAs p encLevel (g a) rest := by
  obtain ⟨body, h1, h2, h3⟩ := h
  refine ⟨typ, body, htyp, fun b => ?_, hlen.trans h2, ?_⟩
  · rw [happ, h1]
    rfl
  · rw [hparse]
    exact h3.map

theorem crypto_roundTrip {f : CryptoFrame} (h : f.Encodable) (rest : List UInt8) :
    RoundTrip (CryptoFrame.append · f) f.length 0x6 (.ofOption .eof CryptoFrame.parse) f rest :=
  ⟨_, fun b => (CryptoFrame.append_eq_some_iff b _).mpr ⟨h, rfl⟩,
    (CryptoFrame.length_eq_some_iff _).mpr ⟨h, rfl⟩, .ofOption (CryptoFrame.parse_bytes h rest)⟩

theorem datagram_roundTrip {f : DatagramFrame} (h : f.data.length ≤ maxVarInt8)
    (hrest : f.dataLenPresent = true ∨ rest = []) :
    RoundTrip (DatagramFrame.append · f) f.length f.typ (DatagramFrame.reader f.typ) f rest := by
  have hbody : frameBody f.fields f.data = f.body := by
    rw [DatagramFrame.fields, DatagramFrame.body]
    cases f.dataLenPresent <;> rfl
  have hfields : ∀ i ∈ f.fields, i ≤ maxVarInt8 := by
    rw [DatagramFrame.fields]
    cases f.dataLenPresent with
    | true => simpa using h
    | false => rintro _ ⟨⟩
  have hparse : DatagramFrame.parse (f.body ++ rest) f.typ = some (f, f.body.length) :=
    f.parse_body h fun hlen => hrest.resolve_left (by rw [hlen]; decide)
  refine .of_fields hfields rfl (.ofOption ?_)
  rw [hbody, hparse, Option.map_some, drop_left]

theorem parseTyped_datagram (encLevel : EncryptionLevel) (hp : p.supportsDatagrams = true) :
    p.parseTyped encLevel 0x31 = .datagram <$> DatagramFrame.reader 0x31 ∧
      p.parseTyped encLevel 0x30 = .datagram <$> DatagramFrame.reader 0x30 := by
  have hif : ∀ typ, (if p.supportsDatagrams then Frame.datagram <$> DatagramFrame.reader typ
      else .fail .unknownFrameType) = Frame.datagram <$> DatagramFrame.reader typ :=
    fun _ => if_pos hp
  exact ⟨hif 0x31, hif 0x30⟩

theorem stream_readAs {f : StreamFrame} (h : f.InRange)
    (hrest : f.dataLenPresent = true ∨ rest = []) :
    (Frame.stream f).ReadAs p encLevel (.stream f) rest := by
  obtain ⟨hmax, hmask, -⟩ := f.typ_bits
  have hpos : 0 < f.typ := by
    apply Nat.pos_of_ne_zero
    intro h0
    rw [h0] at hmask
    exact absurd hmask (by decide)
  have htyp : UInt8.ofNat f.typ = f.typeByte := UInt8.ofNat_toNat
  refine ⟨f.typ, f.fields.flatMap QuicVarint.encode ++ f.data, ⟨hpos, hmax⟩, fun b => ?_, ?_, ?_⟩
  · rw [htyp]
    exact f.append_eq h.toWritable b
  · show frameLength f.fields f.data.length = _
    rw [frameLength, QuicVarint.foldlM_len _ _ (f.fields_le h.toWritable), Option.map_some,
      List.length_append]
    congr 1
    omega
  · have hparse : p.parseTyped encLevel f.typ = .stream <$> StreamFrame.parse f.typ := if_pos hmask
    rw [hparse]
    exact (f.parse_bytes h hrest).map

/-- Every frame is written as a type and a body that its parser reads back. -/
theorem Frame.readAs_self (p : FrameParser) (hp : p.supportsDatagrams = true)
    (encLevel : EncryptionLevel) {f : Frame} (h : f.InRange) (hwire : f.OnWire)
    (hrest : f.Delimited ∨ rest = []) : f.ReadAs p encLevel f rest := by
  cases f with
  | ping => exact ⟨0x1, [], by decide, fun _ => rfl, rfl, .pure⟩
  | ack f => exact h.elim
  | resetStream f => exact .of_roundTrip 0x4 (f.roundTrip h rest)
  | stopSending f => exact .of_roundTrip 0x5 (f.roundTrip h rest)
  | crypto f => exact .of_roundTrip 0x6 (crypto_roundTrip h rest)
  | newToken f => exact .of_roundTrip 0x7 (f.roundTrip h rest)
  | stream f => exact stream_readAs h hrest
  | maxData f => exact .of_roundTrip 0x10 (f.roundTrip h rest)
  | maxStreamData f => exact .of_roundTrip 0x11 (f.roundTrip h rest)
  | maxStreams f =>
    have hround := f.roundTrip h rest
    obtain ⟨type, n⟩ := f
    cases type with
    | bidi => exact .of_roundTrip 0x12 hround
    | uni => exact .of_roundTrip 0x13 hround
  | dataBlocked f => exact .of_roundTrip 0x14 (f.roundTrip h rest)
  | streamDataBlocked f => exact .of_roundTrip 0x15 (f.roundTrip h rest)
  | streamsBlocked f =>
    have hround := f.roundTrip h rest
    obtain ⟨type, n⟩ := f
    cases type with
    | bidi => exact .of_roundTrip 0x16 hround
    | uni => exact .of_roundTrip 0x17 hround
  | newConnectionID f => exact .of_roundTrip 0x18 (f.roundTrip h rest)
  | retireConnectionID f => exact .of_roundTrip 0x19 (f.roundTrip h rest)
  | pathChallenge f => exact .of_roundTrip 0x1a (f.roundTrip rest)
  | pathResponse f => exact .of_roundTrip 0x1b (f.roundTrip rest)
  | connectionClose f =>
    have hround := f.roundTrip h hwire rest
    obtain ⟨app, code, ft, reason⟩ := f
    cases app with
    | true => exact .of_roundTrip 0x1d hround
    | false => exact .of_roundTrip 0x1c hround
  | handshakeDone => exact ⟨0x1e, [], by decide, fun _ => rfl, rfl, .pure⟩
  | datagram f =>
    have hround := datagram_roundTrip h hrest
    obtain ⟨hlen, hshort⟩ := parseTyped_datagram encLevel hp
    obtain ⟨len, data⟩ := f
    cases len with
    | true => exact .of_roundTrip 0x31 hround (by decide) (fun _ => rfl) rfl hlen
    | false =>
      have hround : RoundTrip _ _ 0x30 (DatagramFrame.reader 0x30) _ rest := hround
      exact .of_roundTrip 0x30 hround (by decide) (fun _ => rfl) rfl hshort

theorem ack_readAs (p : FrameParser) {f : AckFrame} (h : f.Sendable) : ∃ k,
    f.numEncodableAckRanges = some (k + 1) ∧ ∀ rest, (Frame.ack f).ReadAs p .oneRTT
      (.ack (f.readAs p.ackDelayExponent (k + 1))) rest := by
  obtain ⟨body, k, hnum, -, happ, hlen, hread⟩ := h.parse_append p.ackDelayExponent
  refine ⟨k, hnum, fun rest => ?_⟩
  have hread := (hread rest).map (g := Frame.ack)
  have happ : ∀ b, (Frame.ack f).append b = orPanic (f.append b) := fun _ => rfl
  cases hecn : f.hasECN with
  | true =>
    rw [hecn] at hread
    refine ⟨0x3, body, by decide, fun b => ?_, hlen, hread⟩
    rw [happ, ‹∀ b, f.append b = _›, hecn]
    rfl
  | false =>
    rw [hecn] at hread
    refine ⟨0x2, body, by decide, fun b => ?_, hlen, hread⟩
    rw [happ, ‹∀ b, f.append b = _›, hecn]
    rfl

/-- A frame of a type, behind the bytes that were skipped. -/
theorem parseLoop_frame {typ : Nat} {body : List UInt8} (htyp : 0 < typ ∧ typ ≤ 63)
    (hread : (p.parseTyped encLevel typ).Reads body g rest)
    (hallowed : isAllowedAtEncLevel g encLevel = true) (n parsed : Nat) :
    p.parseLoop encLevel (n + 1) (.ofNat typ :: body ++ rest) parsed =
      .ok (some g, parsed + (body.length + 1)) := by
  have hparse : QuicVarint.parse (.ofNat typ :: (body ++ rest)) = some (typ, 1) :=
    QuicVarint.parse_one (by omega) _
  have hf : p.parseFrame (body ++ rest) typ encLevel = .ok (g, body.length) := by
    rw [parseFrame, hread.count]
    exact if_pos hallowed
  rw [cons_append, parseLoop, hparse]
  simp only [drop_succ_cons, drop_zero, hf]
  rw [if_neg (by omega), Nat.add_assoc, Nat.add_comm 1]

/-- What is written is taken for the frame that is read. -/
theorem Frame.ReadAs.parseNext (h : f.ReadAs p encLevel g rest)
    (hallowed : isAllowedAtEncLevel g encLevel = true) :
    ∃ bytes, (∀ b, f.append b = .ok (b ++ bytes)) ∧ f.length = some bytes.length ∧
      p.parseNext (bytes ++ rest) encLevel = .ok (some g, bytes.length) := by
  obtain ⟨typ, body, htyp, happ, hlen, hread⟩ := h
  refine ⟨.ofNat typ :: body, happ, hlen, ?_⟩
  have hloop := parseLoop_frame htyp hread hallowed (body ++ rest).length 0
  rw [Nat.zero_add] at hloop
  exact hloop

/-- **Frame codec.**  A frame whose fields are in range, without a frame type if it closes the
connection for the application, is written with as many bytes as `Length` says, and
`ParseNext` takes exactly these bytes for it, whatever follows.  After a STREAM or a DATAGRAM
frame without a length field nothing may follow. -/
theorem parseNext_append (p : FrameParser) (hp : p.supportsDatagrams = true) (f : Frame)
    (h : f.InRange) (hwire : f.OnWire) (rest : List UInt8) (hrest : f.Delimited ∨ rest = []) :
    ∃ bytes, (∀ b, f.append b = .ok (b ++ bytes)) ∧ f.length = some bytes.length ∧
      p.parseNext (bytes ++ rest) .oneRTT = .ok (some f, bytes.length) := by
  have hread := Frame.readAs_self p hp .oneRTT h hwire hrest
  exact hread.parseNext rfl

/-- A STREAM frame at the end of a packet. -/
theorem parseNext_append_lastStreamFrame :
    let f : Frame := .stream ⟨4, 70, [1, 2, 3], true, false⟩
    ∃ bytes, (∀ b, f.append b = .ok (b ++ bytes)) ∧ f.length = some bytes.length ∧
      (FrameParser.mk 3 true).parseNext (bytes ++ []) .oneRTT = .ok (some f, bytes.length) :=
  parseNext_append ⟨3, true⟩ rfl (.stream ⟨4, 70, [1, 2, 3], true, false⟩)
    { nonempty := .inr rfl, streamID := by decide, offset := by decide, data := by decide,
      maxOffset := by decide } trivial [] (.inr rfl)

/-- The frame type that comes with an application's error is not written: the frame that is
read back has none. -/
theorem application_close_loses_frameType :
    let f : Frame := .connectionClose ⟨true, 0, 1, []⟩
    (f.InRange ∧ f.Delimited) ∧ f.append [] = .ok [0x1d, 0, 0] ∧ ∃ g,
      (FrameParser.mk 3 true).parseNext [0x1d, 0, 0] .oneRTT = .ok (some g, 3) ∧ g ≠ f :=
  ⟨⟨⟨by decide, by decide, by decide⟩, trivial⟩, rfl, .connectionClose ⟨true, 0, 0, []⟩, rfl,
    by decide⟩

/-! ## The types that are accepted -/

/-- The type of the next frame, which is the first number that is not that of PADDING, and what
follows it. -/
def typeLoop : Nat → List UInt8 → Option (Nat × List UInt8)
  | n + 1, x :: b =>
    match QuicVarint.parse (x :: b) with
    | none => none
    | some (typ, l) =>
      if typ = 0x0 then typeLoop n ((x :: b).drop l) else some (typ, (x :: b).drop l)
  | _, _ => none

def nextType (b : List UInt8) : Option (Nat × List UInt8) := typeLoop b.length b

/-- The types of RFC 9000, and those of DATAGRAM frames if they are supported. -/
def KnownType (p : FrameParser) (typ : Nat) : Prop :=
  (0x1 ≤ typ ∧ typ ≤ 0x1e) ∨ p.supportsDatagrams = true ∧ (typ = 0x30 ∨ typ = 0x31)

/-- The type is assigned to frames of this kind. -/
def Frame.HasType (typ : Nat) : Frame → Prop
  | .ping => typ = 0x1
  | .ack _ => typ = 0x2 ∨ typ = 0x3
  | .resetStream _ => typ = 0x4
  | .stopSending _ => typ = 0x5
  | .crypto _ => typ = 0x6
  | .newToken _ => typ = 0x7
  | .stream _ => 0x8 ≤ typ ∧ typ ≤ 0xf
  | .maxData _ => typ = 0x10
  | .maxStreamData _ => typ = 0x11
  | .maxStreams _ => typ = 0x12 ∨ typ = 0x13
  | .dataBlocked _ => typ = 0x14
  | .streamDataBlocked _ => typ = 0x15
  | .streamsBlocked _ => typ = 0x16 ∨ typ = 0x17
  | .newConnectionID _ => typ = 0x18
  | .retireConnectionID _ => typ = 0x19
  | .pathChallenge _ => typ = 0x1a
  | .pathResponse _ => typ = 0x1b
  | .connectionClose _ => typ = 0x1c ∨ typ = 0x1d
  | .handshakeDone => typ = 0x1e
  | .datagram _ => typ = 0x30 ∨ typ = 0x31

theorem count_map_eq_ok {α : Type} {g : α → Frame} {q : FrameReader α} {l : Nat}
    (h : (g <$> q).count b = .ok (f, l)) : ∃ a, f = g a := by
  have h : (q >>= fun a => pure (g a)).count b = .ok (f, l) := h
  rw [Parser.count, Parser.bind_apply] at h
  cases hq : q b with
  | error e =>
    rw [hq] at h
    cases h
  | ok r =>
    rw [hq] at h
    cases h
    exact ⟨r.1, rfl⟩

/-- A type that passes for that of a STREAM frame is one if it has no more than one byte. -/
theorem parseTyped_hasType {typ l : Nat} (hmask : typ &&& 0xf8 = 0x8 → typ ≤ 0xf)
    (h : (p.parseTyped encLevel typ).count b = .ok (f, l)) : p.KnownType typ ∧ f.HasType typ := by
  have hdatagram : ∀ {typ : Nat}, typ = 0x30 ∨ typ = 0x31 →
      (if p.supportsDatagrams then Frame.datagram <$> DatagramFrame.reader typ
        else .fail .unknownFrameType).count b = .ok (f, l) → p.KnownType typ ∧ f.HasType typ := by
    intro typ htyp h
    split_ifs at h with hp
    · obtain ⟨a, rfl⟩ := count_map_eq_ok h
      exact ⟨.inr ⟨hp, htyp⟩, htyp⟩
    · cases h
  unfold parseTyped at h
  split at h
  · rename_i hstream
    have hle : 0x8 ≤ typ := hstream ▸ Nat.and_le_left
    have hge := hmask hstream
    obtain ⟨a, rfl⟩ := count_map_eq_ok h
    exact ⟨.inl ⟨by omega, by omega⟩, hle, hge⟩
  · split at h
    all_goals first
      | exact hdatagram (by decide) h
      | obtain ⟨a, rfl⟩ := count_map_eq_ok h
        exact ⟨.inl (by decide), by simp [Frame.HasType]⟩
      | cases h
        exact ⟨.inl (by decide), rfl⟩
      | cases h

theorem parseFrame_hasType {typ l : Nat} (hmask : typ &&& 0xf8 = 0x8 → typ ≤ 0xf)
    (h : p.parseFrame b typ encLevel = .ok (f, l)) : p.KnownType typ ∧ f.HasType typ := by
  rw [parseFrame] at h
  split at h
  · cases h
  · rename_i hcount
    split at h
    · cases h
      exact parseTyped_hasType hmask hcount
    · cases h

/-- What `ParseNext` does with the frame of the next type; without a type there is no frame. -/
theorem parseNext_eq (p : FrameParser) (b : List UInt8) (encLevel : EncryptionLevel) :
    match nextType b with
    | some (typ, body) => ∃ parsed, p.parseNext b encLevel =
        match p.parseFrame body typ encLevel with
        | .error e => .error ⟨typ, e⟩
        | .ok (f, l) => .ok (some f, parsed + l)
    | none => ∀ f l, p.parseNext b encLevel ≠ .ok (some f, l) := by
  rw [nextType, parseNext]
  generalize b.length = n
  generalize 0 = parsed
  -- both loops skip the same PADDING
  induction n generalizing b parsed with
  | zero => cases b <;> rintro _ _ ⟨⟩
  | succ n ih =>
    cases b with
    | nil => rintro _ _ ⟨⟩
    | cons x b =>
      rw [typeLoop, parseLoop]
      cases hnumber : QuicVarint.parse (x :: b) with
      | none => rintro _ _ ⟨⟩
      | some r =>
        dsimp only
        by_cases hpadding : r.1 = 0x0
        · rw [if_pos hpadding, if_pos hpadding]
          exact ih _ _
        · rw [if_neg hpadding, if_neg hpadding]
          exact ⟨parsed + r.2, rfl⟩

/-- A type of several bytes that looks like that of a STREAM frame in its last one, at a level
where such frames are allowed, before what can be read as the rest of one. -/
def Misread (encLevel : EncryptionLevel) (b : List UInt8) : Prop :=
  ∃ typ body, nextType b = some (typ, body) ∧ typ &&& 0xf8 = 0x8 ∧ 0xf < typ ∧
    (encLevel = .zeroRTT ∨ encLevel = .oneRTT) ∧
    ∃ frame rest, StreamFrame.parse typ body = .ok (frame, rest)

/-- A STREAM frame is accepted iff it can be read, and the level is right. -/
theorem parseFrame_stream_iff {typ : Nat} (hmask : typ &&& 0xf8 = 0x8) :
    (∃ f l, p.parseFrame b typ encLevel = .ok (f, l)) ↔
      (encLevel = .zeroRTT ∨ encLevel = .oneRTT) ∧
        ∃ frame rest, StreamFrame.parse typ b = .ok (frame, rest) := by
  have hparse : p.parseTyped encLevel typ = .stream <$> StreamFrame.parse typ := if_pos hmask
  have hmap : (Frame.stream <$> StreamFrame.parse typ : FrameReader Frame) =
      StreamFrame.parse typ >>= fun frame => pure (.stream frame) := rfl
  rw [parseFrame, hparse, Parser.count, hmap, Parser.bind_apply]
  cases hstream : StreamFrame.parse typ b with
  | error e => exact ⟨by rintro ⟨_, _, ⟨⟩⟩, by rintro ⟨-, _, _, ⟨⟩⟩⟩
  | ok r =>
    cases encLevel with
    | initial | handshake =>
      refine ⟨by rintro ⟨_, _, ⟨⟩⟩, ?_⟩
      rintro ⟨hlevel | hlevel, -⟩ <;> cases hlevel
    | zeroRTT => exact ⟨fun _ => ⟨.inl rfl, r.1, r.2, rfl⟩, fun _ => ⟨_, _, rfl⟩⟩
    | oneRTT => exact ⟨fun _ => ⟨.inr rfl, r.1, r.2, rfl⟩, fun _ => ⟨_, _, rfl⟩⟩

/-- **Only known frame types are accepted**, iff none is misread: a frame is returned for a type
that is known and assigned to it, and for every other type there is an error. -/
theorem parseNext_known_iff (p : FrameParser) (b : List UInt8) (encLevel : EncryptionLevel) :
    ((∀ f l, p.parseNext b encLevel = .ok (some f, l) →
        ∃ typ body, nextType b = some (typ, body) ∧ p.KnownType typ ∧ f.HasType typ) ∧
      ∀ typ body, nextType b = some (typ, body) → ¬p.KnownType typ →
        ∃ e, p.parseNext b encLevel = .error ⟨typ, e⟩) ↔ ¬Misread encLevel b := by
  constructor
  · rintro ⟨-, hunknown⟩ ⟨typ, body, htype, hmask, hlong, hstream⟩
    have hother : ¬p.KnownType typ := by
      rintro (⟨-, hle⟩ | ⟨-, rfl | rfl⟩)
      · interval_cases typ <;> cases hmask
      · cases hmask
      · cases hmask
    obtain ⟨f, l, hframe⟩ := (parseFrame_stream_iff (p := p) hmask).mpr hstream
    obtain ⟨e, herr⟩ := hunknown typ body htype hother
    have hnext := parseNext_eq p b encLevel
    rw [htype] at hnext
    obtain ⟨parsed, hnext⟩ := hnext
    rw [herr, hframe] at hnext
    cases hnext
  · intro hread
    have hnext := parseNext_eq p b encLevel
    cases htype : nextType b with
    | none =>
      rw [htype] at hnext
      exact ⟨fun f l h => absurd h (hnext f l), by rintro _ _ ⟨⟩⟩
    | some r =>
      obtain ⟨typ, body⟩ := r
      rw [htype] at hnext
      obtain ⟨parsed, hnext⟩ := hnext
      rw [hnext]
      cases hframe : p.parseFrame body typ encLevel with
      | error e =>
        refine ⟨by rintro _ _ ⟨⟩, ?_⟩
        rintro _ _ ⟨⟩ -
        exact ⟨e, rfl⟩
      | ok g =>
        have hknown := parseFrame_hasType (fun hmask => Nat.not_lt.mp fun hlong =>
          hread ⟨typ, body, htype, hmask, hlong, (parseFrame_stream_iff hmask).mp ⟨_, _, hframe⟩⟩)
          hframe
        refine ⟨?_, ?_⟩
        · rintro f l ⟨⟩
          exact ⟨typ, body, rfl, hknown⟩
        · rintro _ _ ⟨⟩ hunknown
          exact absurd hknown.1 hunknown

/-- The type 0x108 is taken for that of a STREAM frame, -/
theorem parseNext_unknown_stream :
    nextType [0x41, 0x08, 0x4, 0x61] = some (0x108, [0x4, 0x61]) ∧
      ¬(FrameParser.mk 3 true).KnownType 0x108 ∧
      (FrameParser.mk 3 true).parseNext [0x41, 0x08, 0x4, 0x61] .oneRTT =
        .ok (some (.stream ⟨4, 0, [0x61], false, false⟩), 4) :=
  ⟨by decide, by simp [KnownType], by decide⟩

/-- but not in an Initial packet, or without a stream ID. -/
example : ¬Misread .initial [0x41, 0x08, 0x4, 0x61] ∧ ¬Misread .oneRTT [0x41, 0x08] := by
  constructor
  · rintro ⟨_, _, _, _, _, hlevel | hlevel, -⟩ <;> cases hlevel
  · rintro ⟨_, _, ⟨⟩, _, _, _, _, _, ⟨⟩⟩

/-! ## Payloads -/

/-- The loop of `handleFrames`, without what is done with the frames.  A round takes the bytes
of a frame, so that the first argument, the length of the payload, is never used up. -/
def parseUpTo (p : FrameParser) (encLevel : EncryptionLevel) :
    Nat → List UInt8 → Except FrameEncodingError (List Frame)
  | _, [] => .ok []
  | 0, _ :: _ => .error ⟨0, .parse .unexpectedEOF⟩
  | n + 1, x :: b =>
    match p.parseNext (x :: b) encLevel with
    | .error e => .error e
    | .ok (none, _) => .ok []
    | .ok (some f, l) => (parseUpTo p encLevel n ((x :: b).drop l)).map (f :: ·)

/-- All the frames of a payload. -/
def parseAll (p : FrameParser) (b : List UInt8) (encLevel : EncryptionLevel) :
    Except FrameEncodingError (List Frame) :=
  p.parseUpTo encLevel b.length b

theorem parseLoop_parsed : ∀ (n : Nat) (b : List UInt8) (parsed : Nat),
    p.parseLoop encLevel n b parsed =
      (p.parseLoop encLevel n b 0).map fun r => (r.1, parsed + r.2)
  | _, [], parsed | 0, x :: b, parsed => by
    rw [parseLoop, parseLoop]
    rfl
  | n + 1, x :: b, parsed => by
    rw [parseLoop, parseLoop]
    cases QuicVarint.parse (x :: b) with
    | none => rfl
    | some r =>
      dsimp only
      split
      · rw [parseLoop_parsed n _ (parsed + r.2), parseLoop_parsed n _ (0 + r.2)]
        cases p.parseLoop encLevel n ((x :: b).drop r.2) 0 with
        | error e => rfl
        | ok r' => simp only [Except.map, Nat.zero_add, Nat.add_assoc]
      · cases p.parseFrame ((x :: b).drop r.2) r.1 encLevel with
        | error e => rfl
        | ok r' => simp only [Except.map, Nat.zero_add, Nat.add_assoc]

theorem parseNext_padding (b : List UInt8) : p.parseNext (0x0 :: b) encLevel =
    (p.parseNext b encLevel).map fun r => (r.1, 1 + r.2) := by
  have hparse : QuicVarint.parse (0x0 :: b) = some (0x0, 1) :=
    QuicVarint.parse_one (n := 0) (by decide) b
  rw [parseNext, length_cons, parseLoop, hparse]
  exact parseLoop_parsed b.length b 1

/-- A frame has a type, at least. -/
theorem parseNext_pos {l : Nat} (h : p.parseNext b encLevel = .ok (some f, l)) : 0 < l := by
  have hloop : ∀ {n : Nat} {b : List UInt8} {parsed : Nat},
      p.parseLoop encLevel n b parsed = .ok (some f, l) → parsed < l := by
    intro n
    induction n with
    | zero =>
      intro b parsed h
      cases b with
      | nil | cons x b => cases h
    | succ n ih =>
      intro b parsed h
      cases b with
      | nil => cases h
      | cons x b =>
        rw [parseLoop] at h
        cases hparse : QuicVarint.parse (x :: b) with
        | none => rw [hparse] at h; cases h
        | some r =>
          have hpos := (QuicVarint.parse_bounds hparse).1
          rw [hparse] at h
          dsimp only at h
          split at h
          · have := ih h
            omega
          · split at h
            · cases h
            · cases h
              omega
  exact hloop h

theorem parseUpTo_fuel : ∀ {n m : Nat} {b : List UInt8}, b.length ≤ n → b.length ≤ m →
    p.parseUpTo encLevel n b = p.parseUpTo encLevel m b
  | n, m, [], _, _ => by
    rw [parseUpTo, parseUpTo]
  | n + 1, m + 1, x :: b, hn, hm => by
    rw [parseUpTo, parseUpTo]
    split
    · rfl
    · rfl
    · rename_i f l hnext
      have hpos := parseNext_pos hnext
      have hdrop : ((x :: b).drop l).length ≤ b.length := by
        rw [length_drop, length_cons]
        omega
      rw [parseUpTo_fuel (hdrop.trans (Nat.le_of_succ_le_succ hn))
        (hdrop.trans (Nat.le_of_succ_le_succ hm))]

theorem parseAll_next {l : Nat} (h : p.parseNext b encLevel = .ok (some f, l)) :
    p.parseAll b encLevel = (p.parseAll (b.drop l) encLevel).map (f :: ·) := by
  have hpos := parseNext_pos h
  cases b with
  | nil => cases h
  | cons x b =>
    have hdrop : ((x :: b).drop l).length ≤ b.length := by
      rw [length_drop, length_cons]
      omega
    rw [parseAll, length_cons, parseUpTo, h, parseAll]
    dsimp only
    rw [parseUpTo_fuel hdrop le_rfl]

theorem parseAll_padding (b : List UInt8) :
    p.parseAll (0x0 :: b) encLevel = p.parseAll b encLevel := by
  have hnext : p.parseNext (0x0 :: b) encLevel = _ := parseNext_padding b
  cases b with
  | nil => rfl
  | cons x b =>
    cases h : p.parseNext (x :: b) encLevel with
    | error e =>
      rw [h] at hnext
      rw [parseAll, parseAll, length_cons, length_cons, parseUpTo, parseUpTo, hnext, h]
      rfl
    | ok r =>
      obtain ⟨f, l⟩ := r
      rw [h] at hnext
      cases f with
      | none =>
        rw [parseAll, parseAll, length_cons, length_cons, parseUpTo, parseUpTo, hnext, h]
        rfl
      | some f =>
        rw [parseAll_next hnext, parseAll_next h, Nat.add_comm, drop_succ_cons]

theorem parseAll_replicate (k : Nat) (b : List UInt8) :
    p.parseAll (List.replicate k 0x0 ++ b) encLevel = p.parseAll b encLevel := by
  induction k with
  | zero => rfl
  | succ k ih =>
    rw [replicate_succ, cons_append, parseAll_padding]
    exact ih

theorem Frame.ReadAs.parseAll (h : f.ReadAs p encLevel g rest)
    (hallowed : isAllowedAtEncLevel g encLevel = true) :
    ∃ bytes, (∀ b, f.append b = .ok (b ++ bytes)) ∧ f.length = some bytes.length ∧
      p.parseAll (bytes ++ rest) encLevel = (p.parseAll rest encLevel).map (g :: ·) := by
  obtain ⟨bytes, happ, hlen, hnext⟩ := h.parseNext hallowed
  refine ⟨bytes, happ, hlen, ?_⟩
  rw [parseAll_next hnext, drop_left]

end FrameParser

end UQuic.Wire
