/-
# `UQuic.PacketPacker` — the model of `packet_packer.go`

What goes into a packet, and how it is written.

    maybeGetCryptoPacket    an Initial or a Handshake payload: an ACK, then either
                            retransmissions or new crypto data
    maybeGetAppDataPacket   a 0-RTT or a 1-RTT payload: an ACK, a DATAGRAM frame,
                            retransmissions, and what the framer has
    appendLongHeaderPacket  header, payload and padding, sealed, behind what is
    appendShortHeaderPacket already in the buffer

Budgets are `Int`s, since a subtraction may take one below zero.  A sealer is known by
what it does to the bytes: it seals the payload, which takes 16 bytes more, and masks
the low bits of the first byte and the packet number.  Ack handlers are left out:
every frame that a packet returns has the handler of its own queue.

What is left in the handshake queue and the framer, and the count of packets without
ack-eliciting frames, is not tracked.
-/
import UQuic.Framer
import UQuic.QUICFrames

namespace UQuic

open Wire (AckFrame CryptoFrame StreamFrame ExtendedHeader ConnectionID PacketNumberLen)

/-! ## Errors -/

/-- The errors and the panics of the packer. -/
inductive PackFailure
  /-- `QUIC Initial minimum datagram size %d exceeds budget %d`. -/
  | minimumExceedsBudget (minimum maxSize : Int)
  /-- `QUIC Initial frames exceed datagram budget %d`. -/
  | framesExceedBudget (maxSize : Int)
  /-- `QUIC Initial frames do not fit datagram budget %d`. -/
  | framesDoNotFit (maxSize : Int)
  /-- `QUIC Initial frame layout exceeds payload budget %d`. -/
  | layoutExceedsBudget (maxSize : Int)
  /-- `QUIC Initial control frames exceed payload budget %d`. -/
  | controlFramesExceedBudget (maxSize : Int)
  /-- An error of `clienthellod`. -/
  | clienthellod
  /-- An error, or a panic, of the frame builder. -/
  | layout (e : BuildError)
  /-- `StreamFrame: attempting to write empty frame without FIN`. -/
  | emptyStreamFrame
  /-- `PacketPacker BUG: payload size inconsistent (expected %d, got %d bytes)`. -/
  | payloadSize (expected got : Nat)
  /-- `PacketPacker BUG: packet too large (%d bytes, allowed %d bytes)`. -/
  | packetTooLarge (size allowed : Int)
  /-- The keys of the encryption level are gone, or not there yet. -/
  | noKeys
  /-- Panic: `unknown encryption level`. -/
  | unknownEncryptionLevel
  /-- Panic: a number of more than 62 bits, or a header length of more than 14. -/
  | tooLarge
  /-- Panic: the packet does not fit the buffer. -/
  | bufferTooSmall
  deriving DecidableEq, Repr

/-- The program ends. -/
def PackFailure.Panics : PackFailure → Prop
  | .unknownEncryptionLevel | .tooLarge | .bufferTooSmall => True
  | .layout e => ¬ e.Returned
  | _ => False

/-- A panic on a number that has no encoding. -/
def orTooLarge {α : Type} : Option α → Except PackFailure α
  | none => .error .tooLarge
  | some a => .ok a

theorem orTooLarge_eq_ok {α : Type} {o : Option α} {a : α} (h : orTooLarge o = .ok a) :
    o = some a := by
  cases o with
  | none => cases h
  | some b => exact congrArg some (Except.ok.inj h)

/-! ## The packer -/

/-- What a sealer adds to a payload. -/
def sealerOverhead : Nat := 16

/-- `handshake.LongHeaderSealer`, `handshake.ShortHeaderSealer`. -/
structure Sealer where
  /-- `Seal`, of a packet number, a payload and the header. -/
  sealPayload : Nat → List UInt8 → List UInt8 → List UInt8
  /-- The mask that header protection gets from a sample. -/
  mask : List UInt8 → Nat → UInt8
  length_sealPayload : ∀ pn payload header,
    (sealPayload pn payload header).length = payload.length + sealerOverhead

/-- A tag of zeros has the length of a tag. -/
theorem length_zeroTag (_ : Nat) (payload _ : List UInt8) :
    (payload ++ List.replicate sealerOverhead 0x0).length = payload.length + sealerOverhead := by
  simp

/-- `sealingManager`: `none` for keys that were dropped or are not yet available, the only
errors of the getters. -/
structure SealingManager where
  initial : Option Sealer
  handshake : Option Sealer
  zeroRTT : Option Sealer
  /-- With the key phase. -/
  oneRTT : Option (Sealer × Bool)

/-- A packer without ACK frames. -/
theorem noAck_sendable (_ : EncryptionLevel) (_ : Bool) (ack : AckFrame) (h : none = some ack) :
    ack.Sendable := nomatch h

/-- `datagramQueue`, the bytes of the frames in it; `none` is nil. -/
abbrev QueuedDatagrams := Option (List (List UInt8))

/-- `packetPacker`. -/
structure PacketPacker where
  srcConnID : ConnectionID
  destConnID : ConnectionID
  perspective : Perspective
  cryptoSetup : SealingManager
  initialStream : CryptoStream
  handshakeStream : CryptoStream
  token : List UInt8
  /-- `PeekPacketNumber`; `PopPacketNumber` returns the same number. -/
  pnManager : EncryptionLevel → Nat × PacketNumberLen
  framer : Framer
  /-- `GetAckFrame`, by encryption level and whether only a queued one is asked for. -/
  acks : EncryptionLevel → Bool → Option AckFrame
  /-- What the received packet handler promises of its frames
  (`AckHandler.ReceivedPacketHandler.acks_sendable`). -/
  acks_sendable : ∀ encLevel onlyIfQueued ack, acks encLevel onlyIfQueued = some ack → ack.Sendable
  datagramQueue : QueuedDatagrams
  retransmissionQueue : RetransmissionQueue
  numNonAckElicitingAcks : Nat
  /-- The partners that `rand` draws for a shuffle. -/
  swap : Nat → Nat
  version : Wire.Version

/-- `payload`. -/
structure Payload where
  streamFrames : List StreamFrame
  frames : List OutgoingFrame
  ack : Option AckFrame
  length : Nat
  deriving DecidableEq, Repr

/-- `payload{}`. -/
def Payload.empty : Payload := ⟨[], [], none, 0⟩

def ackLength : Option AckFrame → Except PackFailure Nat
  | none => .ok 0
  | some ack => orTooLarge ack.length

namespace PacketPacker

def getLongHeader (p : PacketPacker) (encLevel : EncryptionLevel) (type : Wire.PacketType) :
    ExtendedHeader where
  type := type
  version := p.version
  srcConnectionID := p.srcConnID
  destConnectionID := p.destConnID
  token := if type = .initial then p.token else []
  length := 0
  packetNumber := (p.pnManager encLevel).1
  packetNumberLen := (p.pnManager encLevel).2

/-! ## Crypto packets -/

/-- The loop over the retransmission queue.  Every frame that is taken makes the queue
smaller, so that the first argument, the weight of the queue, is never used up. -/
def takeFrames : Nat → Int → LevelQueue →
    Except PackFailure (List OutgoingFrame × Nat × LevelQueue)
  | 0, _, q => .ok ([], 0, q)
  | n + 1, maxPacketSize, q =>
    (orTooLarge (q.getFrame maxPacketSize)).bind fun
      | none => .ok ([], 0, q)
      | some (f, q) =>
        (orTooLarge f.length).bind fun frameLen =>
          (takeFrames n (maxPacketSize - frameLen) q).map fun (fs, length, q) =>
            (f :: fs, frameLen + length, q)

/-- What the loop over the queue may take at most. -/
def weight (q : LevelQueue) : Nat :=
  q.frames.length + (q.cryptoData.map fun f => f.data.length + 1).sum + 1

/-- A payload with the crypto stream and the queue it leaves. -/
structure CryptoPacket where
  hdr : Option ExtendedHeader
  payload : Payload
  stream : CryptoStream
  queue : LevelQueue

/-- The frames of a crypto packet: retransmissions, or new data if there are none. -/
def cryptoFrames (stream : CryptoStream) (queue : LevelQueue) (maxPacketSize : Int) :
    Except PackFailure (List OutgoingFrame × Nat × CryptoStream × LevelQueue) :=
  if queue.hasData then
    (takeFrames (weight queue) maxPacketSize queue).map fun (fs, length, queue) =>
      (fs, length, stream, queue)
  else if stream.hasData then
    (orTooLarge (stream.popCryptoFrame maxPacketSize)).bind fun (f, stream) =>
      (orTooLarge f.length).map fun length => ([.crypto f], length, stream, queue)
  else .ok ([], 0, stream, queue)

/-- `maybeGetCryptoPacket`, for the crypto stream and the queue of the encryption level. -/
def maybeGetCryptoPacket (p : PacketPacker) (stream : CryptoStream) (queue : LevelQueue)
    (maxPacketSize : Int) (encLevel : EncryptionLevel) (type : Wire.PacketType)
    (onlyAck ackAllowed : Bool) : Except PackFailure CryptoPacket :=
  let hdr := p.getLongHeader encLevel type
  if onlyAck then
    match p.acks encLevel true with
    | none => .ok ⟨none, .empty, stream, queue⟩
    | some ack => (orTooLarge ack.length).map fun l => ⟨hdr, ⟨[], [], ack, l⟩, stream, queue⟩
  else
    let ack := if ackAllowed then p.acks encLevel (!queue.hasData && !stream.hasData) else none
    if !stream.hasData && !queue.hasData && ack.isNone then .ok ⟨none, .empty, stream, queue⟩
    else
      (ackLength ack).bind fun ackLen => (orTooLarge hdr.getLength).bind fun hdrLen =>
        (cryptoFrames stream queue (maxPacketSize - ackLen - hdrLen)).map
          fun (fs, length, stream, queue) =>
            ⟨hdr, ⟨[], fs, ack, ackLen + length⟩, stream, queue⟩

/-! ## Packets with application data -/

def maxNonAckElicitingAcks : Nat := 19

/-- The first DATAGRAM frame of the queue, if it fits, and the queue afterwards.  A frame that does
not fit is discarded, unless the packet has an ACK. -/
def datagram (maxLen : Int) (hasAck : Bool) :
    QueuedDatagrams → List OutgoingFrame × QueuedDatagrams
  | some (f :: rest) =>
    if (f.length : Int) ≤ maxLen then ([.other f], some rest)
    else if hasAck then ([], some (f :: rest))
    else ([], some rest)
  | queue => ([], queue)

/-- The loop over the retransmissions of application data. -/
def retransmissions : Int → List OutgoingFrame → Except PackFailure (List OutgoingFrame × Nat)
  | _, [] => .ok ([], 0)
  | remainingLen, f :: rest =>
    if remainingLen < minStreamFrameSize then .ok ([], 0)
    else
      (orTooLarge f.length).bind fun l =>
        if remainingLen < l then .ok ([], 0)
        else (retransmissions (remainingLen - l) rest).map fun (fs, length) =>
          (f :: fs, l + length)

def framerFrames (p : PacketPacker) (maxLen : Int) : Except PackFailure Framer.Added :=
  if p.framer.hasData then orTooLarge (p.framer.append maxLen) else .ok ⟨[], [], 0⟩

/-- The frames of an application data packet after its ACK and its DATAGRAM frame. -/
def appDataFrames (p : PacketPacker) (ack : Option AckFrame) (ackLen : Nat)
    (dgram : List OutgoingFrame) (maxFrameSize : Int) : Except PackFailure Payload :=
  let length := ackLen + (dgram.map fun f => f.bytes.length).sum
  if ack.isSome && !p.framer.hasData && p.retransmissionQueue.appData.isEmpty then
    .ok ⟨[], dgram, ack, length⟩
  else
    (retransmissions (maxFrameSize - length) p.retransmissionQueue.appData).bind fun (rs, n) =>
      (p.framerFrames (maxFrameSize - length - n)).map fun added =>
        ⟨added.streamFrames, dgram ++ rs ++ added.frames, ack, length + n + added.length⟩

/-- The ACK frame of an application data packet. -/
def composeAck (p : PacketPacker) (ackAllowed : Bool) : Option AckFrame :=
  let onlyIfQueued := p.retransmissionQueue.appData.isEmpty && !p.framer.hasData
  if ackAllowed then p.acks .oneRTT onlyIfQueued else none

/-- `composeNextPacket`: the payload, and the DATAGRAM frames that are still queued. -/
def composeNextPacket (p : PacketPacker) (maxFrameSize : Int) (onlyAck ackAllowed : Bool) :
    Except PackFailure (Payload × QueuedDatagrams) :=
  if onlyAck then
    (ackLength (p.acks .oneRTT true)).map fun l =>
      (⟨[], [], p.acks .oneRTT true, l⟩, p.datagramQueue)
  else
    let ack := p.composeAck ackAllowed
    (ackLength ack).bind fun ackLen =>
      let (dgram, queue) := datagram (maxFrameSize - ackLen) ack.isSome p.datagramQueue
      (p.appDataFrames ack ackLen dgram maxFrameSize).map fun pl => (pl, queue)

/-- An ACK alone is given a PING from time to time. -/
def withPing (p : PacketPacker) (pl : Payload) : Payload :=
  if pl.frames.isEmpty && pl.streamFrames.isEmpty then
    if pl.ack.isNone then .empty
    else if maxNonAckElicitingAcks ≤ p.numNonAckElicitingAcks then
      { pl with frames := [.ping], length := pl.length + 1 }
    else pl
  else pl

def maybeGetAppDataPacket (p : PacketPacker) (maxPayloadSize : Int) (onlyAck ackAllowed : Bool) :
    Except PackFailure (Payload × QueuedDatagrams) :=
  (p.composeNextPacket maxPayloadSize onlyAck ackAllowed).map fun (pl, queue) =>
    (p.withPing pl, queue)

/-! ## Writing packets -/

/-- The bytes that a tiny payload is filled up with, so that header protection finds its
sample. -/
def tinyPadding (pnLen : PacketNumberLen) (length : Nat) : Nat := 4 - pnLen.toNat - length

def longHeaderPacketLength (hdr : ExtendedHeader) (pl : Payload) : Except PackFailure Nat :=
  (orTooLarge hdr.getLength).map fun l =>
    l + pl.length + tinyPadding hdr.packetNumberLen pl.length

def shortHeaderPacketLength (connID : ConnectionID) (pnLen : PacketNumberLen) (pl : Payload) :
    Nat :=
  Wire.shortHeaderLen connID pnLen + pl.length + tinyPadding pnLen pl.length

def initialPaddingLen (p : PacketPacker) (frames : List OutgoingFrame) (currentSize maxSize : Int) :
    Nat :=
  if p.perspective = .server ∧ frames = [] then 0 else (maxSize - currentSize).toNat

def appendAck (raw : List UInt8) : Option AckFrame → Except PackFailure (List UInt8)
  | none => .ok raw
  | some ack => orTooLarge (ack.append raw)

def appendStreamFrame (raw : List UInt8) (f : StreamFrame) : Except PackFailure (List UInt8) :=
  match f.append raw with
  | .ok raw => .ok raw
  | .error .emptyWithoutFin => .error .emptyStreamFrame
  | .error .tooLarge => .error .tooLarge

/-- `appendPacketPayload` without a header before it. -/
def appendPacketPayload (p : PacketPacker) (pl : Payload) (paddingLen : Nat) :
    Except PackFailure (List UInt8) :=
  (appendAck [] pl.ack).bind fun raw =>
    let raw := raw ++ List.replicate paddingLen 0x0
    let frames := QUICRandomFrames.shuffle p.swap (pl.frames.length - 1) pl.frames
    (frames.foldlM (fun raw f => orTooLarge (f.append raw)) raw).bind fun raw =>
      (pl.streamFrames.foldlM appendStreamFrame raw).bind fun raw =>
        if raw.length - paddingLen ≠ pl.length then
          .error (.payloadSize pl.length (raw.length - paddingLen))
        else .ok raw

/-- Header protection of the header `first :: rest`, whose end is the packet number, with what
follows it.  `low` are the bits of the first byte that are masked. -/
def encryptHeader (first : UInt8) (rest body : List UInt8) (s : Sealer) (pnLen : PacketNumberLen)
    (low : UInt8) : List UInt8 :=
  let clear := rest.take (rest.length - pnLen.toNat)
  let pnBytes := rest.drop (rest.length - pnLen.toNat)
  let sample := ((pnBytes ++ body).drop 4).take 16
  (first ^^^ (s.mask sample 0 &&& low)) :: clear ++
    pnBytes.mapIdx (fun i b => b ^^^ s.mask sample (i + 1))

/-- `encryptPacket`: seal the payload, then protect the header. -/
def encryptPacket (hdr payload : List UInt8) (s : Sealer) (pn : Nat) (pnLen : PacketNumberLen)
    (low : UInt8) : List UInt8 :=
  let body := s.sealPayload pn payload hdr
  match hdr with
  | [] => body
  | first :: rest => encryptHeader first rest body s pnLen low ++ body

/-- The packet behind what is in the buffer already. -/
def appendToBuffer (buffer raw : List UInt8) : Except PackFailure (List UInt8) :=
  if maxPacketBufferSize < buffer.length + raw.length then .error .bufferTooSmall
  else .ok (buffer ++ raw)

end PacketPacker

/-- `longHeaderPacket`, with the payload before it was sealed. -/
structure LongHeaderPacket where
  header : ExtendedHeader
  ack : Option AckFrame
  frames : List OutgoingFrame
  streamFrames : List StreamFrame
  length : Nat
  plaintext : List UInt8

/-- `shortHeaderPacket`, the fields that the connection accounts for. -/
structure ShortHeaderPacket where
  packetNumber : Nat
  frames : List OutgoingFrame
  streamFrames : List StreamFrame
  ack : Option AckFrame
  length : Nat

/-- `coalescedPacket`. -/
structure CoalescedPacket where
  buffer : List UInt8
  longHdrPackets : List LongHeaderPacket
  shortHdrPacket : Option ShortHeaderPacket

namespace PacketPacker

/-- A long header packet with a payload that is already written: the end of
`appendLongHeaderPacket`. -/
def appendSealed (buffer : List UInt8) (header : ExtendedHeader) (pl : Payload)
    (plaintext : List UInt8) (s : Sealer) : Except PackFailure (List UInt8 × LongHeaderPacket) :=
  let header := { header with
    length := header.packetNumberLen.toNat + sealerOverhead + plaintext.length }
  (orTooLarge header.append).bind fun hdr =>
    let raw := encryptPacket hdr plaintext s header.packetNumber header.packetNumberLen 0xf
    (appendToBuffer buffer raw).map fun buffer =>
      (buffer, ⟨header, pl.ack, pl.frames, pl.streamFrames, raw.length, plaintext⟩)

def appendLongHeaderPacket (p : PacketPacker) (buffer : List UInt8) (header : ExtendedHeader)
    (pl : Payload) (padding : Nat) (s : Sealer) :
    Except PackFailure (List UInt8 × LongHeaderPacket) :=
  let paddingLen := tinyPadding header.packetNumberLen pl.length + padding
  (p.appendPacketPayload pl paddingLen).bind fun plaintext =>
    appendSealed buffer header pl plaintext s

/-- `appendShortHeaderPacket`, for a packet that is not an MTU probe. -/
def appendShortHeaderPacket (p : PacketPacker) (buffer : List UInt8) (pl : Payload)
    (padding : Nat) (maxPacketSize : Int) (s : Sealer) (keyPhaseOne : Bool) :
    Except PackFailure (List UInt8 × ShortHeaderPacket) :=
  let (pn, pnLen) := p.pnManager .oneRTT
  let paddingLen := tinyPadding pnLen pl.length + padding
  let hdr := Wire.shortHeaderBytes p.destConnID pn pnLen keyPhaseOne
  (p.appendPacketPayload pl paddingLen).bind fun plaintext =>
    let size := hdr.length + plaintext.length + sealerOverhead
    if maxPacketSize < size then .error (.packetTooLarge size maxPacketSize)
    else
      let raw := encryptPacket hdr plaintext s pn pnLen 0x1f
      (appendToBuffer buffer raw).map fun buffer =>
        (buffer, ⟨pn, pl.frames, pl.streamFrames, pl.ack, raw.length⟩)

/-- `appendPacket`, which is `AppendPacket` if not `onlyAck`: the packer afterwards, and the packet;
`none` is `errNothingToPack`. -/
def appendPacket (p : PacketPacker) (buffer : List UInt8) (onlyAck : Bool) (maxPacketSize : Int) :
    PacketPacker × Except PackFailure (Option (List UInt8 × ShortHeaderPacket)) :=
  match p.cryptoSetup.oneRTT with
  | none => (p, .error .noKeys)
  | some (s, keyPhaseOne) =>
    let hdrLen := Wire.shortHeaderLen p.destConnID (p.pnManager .oneRTT).2
    match p.maybeGetAppDataPacket (maxPacketSize - hdrLen - sealerOverhead) onlyAck true with
    | .error e => (p, .error e)
    | .ok (pl, queue) =>
      ({ p with datagramQueue := queue },
        if pl.length = 0 then .ok none
        else (p.appendShortHeaderPacket buffer pl 0 maxPacketSize s keyPhaseOne).map some)

end PacketPacker

end UQuic
