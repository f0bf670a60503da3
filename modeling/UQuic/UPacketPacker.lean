/-
# `UQuic.UPacketPacker` — the model of `u_packet_packer.go`

The packer that lays an Initial packet out as a `QUICSpec` says.  `prepareInitialPacket`
works on copies of the crypto stream and of the retransmission queue:

    stage     sort the queued CRYPTO frames, keep a contiguous run, defer the rest
    collect   frames for one packet, as any packer would
    lay out   their data anew, possibly only a prefix of it
    commit    what the layout carries is recorded; what it left goes back, to the
              queue if it came from there and to the stream otherwise

Then a Handshake packet and a 0-RTT or 1-RTT packet get what is left of the budget, and
the datagram is padded to its minimum size: after the last long header packet, or inside
the short header packet.

`clienthellod`, which splits the collected frames up again, is known by what it promises.
The result of packing is the packer afterwards, whatever happened, and either a failure
or a packet.
-/
import UQuic.PacketPacker

namespace UQuic

open Wire (AckFrame CryptoFrame StreamFrame ExtendedHeader Frame Consecutive)

/-- The frame builders of a spec that the packer knows. -/
inductive FrameBuilder
  | none
  | frames (fs : List QUICFrame)
  | random (q : QUICRandomFrames)
  deriving DecidableEq, Repr

/-- `QUICSpec`, what the packer reads of it. -/
structure QUICSpec where
  frameBuilder : FrameBuilder
  udpDatagramMinSize : Int
  deriving DecidableEq, Repr

/-- The two functions of `clienthellod`: CRYPTO frames are read back, and those that follow
each other are put together. -/
structure Clienthellod where
  readAllFrames : List UInt8 → Option (List Frame)
  reassembleCRYPTOFrames : List Frame → Option (List UInt8)
  read : ∀ fs : List CryptoFrame, (∀ f ∈ fs, f.Encodable) →
    readAllFrames (fs.flatMap CryptoFrame.bytes) = some (fs.map .crypto)
  reassemble : ∀ (base : Nat) (fs : List CryptoFrame), Consecutive base fs →
    reassembleCRYPTOFrames (fs.map .crypto) = some (fs.flatMap (·.data))

/-- `sort.Slice` by offset, which may put frames of equal offset in any order. -/
structure OffsetSort where
  sort : List CryptoFrame → List CryptoFrame
  perm : ∀ l, (sort l).Perm l
  sorted : ∀ l, (sort l).Pairwise fun a b => a.offset ≤ b.offset

/-- `uPacketPacker`, with the libraries it calls and what they draw. -/
structure UPacketPacker extends PacketPacker where
  uSpec : QUICSpec
  clienthellod : Clienthellod
  offsetSort : OffsetSort
  choices : QUICRandomFrames.Choices

namespace UPacketPacker

open PacketPacker

def defaultUDPDatagramMinSize : Int := 1200

def initialDatagramMinSize (u : UPacketPacker) : Int :=
  if u.uSpec.udpDatagramMinSize ≠ 0 then u.uSpec.udpDatagramMinSize
  else defaultUDPDatagramMinSize

/-! ## The payload of an Initial packet -/

/-- `cryptoBaseOffset`: the lowest offset, `0` without CRYPTO frames. -/
def cryptoBaseOffset : List CryptoFrame → Nat
  | [] => 0
  | f :: fs => fs.foldl (fun base f => if f.offset < base then f.offset else base) f.offset

/-- The bytes of the frames that are not CRYPTO, and of those that are. -/
def appendSeparately (preserved original : List UInt8) :
    List OutgoingFrame → Except PackFailure (List UInt8 × List UInt8)
  | [] => .ok (preserved, original)
  | .crypto f :: fs =>
    (orTooLarge (f.append original)).bind fun original =>
      appendSeparately preserved original fs
  | f :: fs =>
    (orTooLarge (f.append preserved)).bind fun preserved =>
      appendSeparately preserved original fs

/-- The frame builder's layout of the data, and how many bytes of it are in there. -/
def layOut (u : UPacketPacker) (cs : List CryptoFrame) (cryptoData : List UInt8)
    (available : Int) : Except BuildError (List UInt8 × Nat) :=
  match u.uSpec.frameBuilder with
  | .none | .frames [] =>
    (QUICFrames.build cryptoData (cs.map fun c => .crypto ⟨c.offset, c.data.length⟩)).map
      fun encoded => (encoded, cryptoData.length)
  | .random q => q.buildAtWithLimit u.choices cryptoData (cryptoBaseOffset cs) available.toNat
  | .frames fs => (QUICFrames.build cryptoData fs).map fun encoded => (encoded, cryptoData.length)

/-- The end of `marshalInitialPacketPayload`: what comes of a layout. -/
def combine (preserved : List UInt8) (baseOffset : Nat) (maxSize : Int) :
    Except BuildError (List UInt8 × Nat) → Except PackFailure (List UInt8 × Nat)
  | .error (.frameBudget n) =>
    -- an ACK or a PING is sent now, and the CRYPTO data gets the next packet
    if preserved.isEmpty then .error (.layout (.frameBudget n)) else .ok (preserved, baseOffset)
  | .error e => .error (.layout e)
  | .ok (encoded, consumed) =>
    if maxSize < preserved.length + encoded.length then .error (.layoutExceedsBudget maxSize)
    else .ok (preserved ++ encoded, baseOffset + consumed)

/-- `marshalInitialPacketPayload`: the payload, and the end of the crypto data in it. -/
def marshalInitialPacketPayload (u : UPacketPacker) (pl : Payload) (maxSize : Int) :
    Except PackFailure (List UInt8 × Nat) :=
  (appendAck [] pl.ack).bind fun preserved =>
    (appendSeparately preserved [] pl.frames).bind fun (preserved, original) =>
      if original.isEmpty then
        if maxSize < preserved.length then .error (.controlFramesExceedBudget maxSize)
        else .ok (preserved, 0)
      else
        match u.clienthellod.readAllFrames original with
        | none => .error .clienthellod
        | some qchframes =>
          match u.clienthellod.reassembleCRYPTOFrames qchframes with
          | none => .error .clienthellod
          | some cryptoData =>
            let available := maxSize - preserved.length
            if available < 0 then .error (.controlFramesExceedBudget maxSize)
            else
              let cs := qchframes.filterMap Frame.crypto?
              combine preserved (cryptoBaseOffset cs) maxSize
                (u.layOut cs cryptoData available)

/-! ## Preparing an Initial packet -/

/-- The run of frames that follow each other from `stop`, and the rest. -/
def contiguous : Nat → List CryptoFrame → List CryptoFrame × List CryptoFrame
  | _, [] => ([], [])
  | stop, f :: fs =>
    if f.offset = stop then
      let r := contiguous (stop + f.data.length) fs
      (f :: r.1, r.2)
    else ([], f :: fs)

/-- The queued CRYPTO frames that one packet may carry, and those that are deferred. -/
def stage (u : UPacketPacker) (onlyAck : Bool) (cryptoData : List CryptoFrame) :
    List CryptoFrame × List CryptoFrame :=
  if !onlyAck && 1 < cryptoData.length then
    match u.offsetSort.sort cryptoData with
    | [] => ([], [])
    | f :: fs =>
      let r := contiguous (f.offset + f.data.length) fs
      (f :: r.1, r.2)
  else (cryptoData, [])

/-- An ACK may leave no room: an empty CRYPTO frame is not sent. -/
def dropEmptyCrypto (pl : Payload) : Except PackFailure Payload :=
  match pl.frames with
  | [.crypto f] =>
    if f.data.isEmpty then
      (orTooLarge f.length).map fun l => { pl with frames := [], length := pl.length - l }
    else .ok pl
  | _ => .ok pl

/-- What the loop over the frames of a laid out packet has done so far. -/
structure Kept where
  frames : List OutgoingFrame
  unsent : List CryptoFrame
  stream : CryptoStream
  length : Nat

/-- A frame that the packet carries. -/
def Kept.add (k : Kept) (f : OutgoingFrame) : Except PackFailure Kept :=
  (orTooLarge f.length).map fun l => { k with frames := k.frames ++ [f], length := k.length + l }

/-- What the layout left of a CRYPTO frame goes back where it came from. -/
def Kept.putBack (k : Kept) (hasRetransmission : Bool) (writeBuf : List UInt8) (c : CryptoFrame)
    (kept : Nat) : Kept :=
  if kept < c.data.length then
    if hasRetransmission then
      { k with unsent := k.unsent ++ [⟨c.offset + kept, c.data.drop kept⟩] }
    else { k with stream := ⟨c.offset + kept, writeBuf.drop kept⟩ }
  else k

/-- One frame: a CRYPTO frame is kept up to `cryptoEnd`. -/
def Kept.keepFrame (cryptoEnd : Nat) (hasRetransmission : Bool) (writeBuf : List UInt8) (k : Kept) :
    OutgoingFrame → Except PackFailure Kept
  | .crypto c =>
    let kept := min (cryptoEnd - c.offset) c.data.length
    let k := k.putBack hasRetransmission writeBuf c kept
    if kept = 0 then .ok k else k.add (.crypto ⟨c.offset, c.data.take kept⟩)
  | .ping => k.add .ping
  | .other bytes => k.add (.other bytes)

/-- A prepared Initial packet, with the crypto stream and the queue afterwards. -/
structure Prepared where
  hdr : Option ExtendedHeader
  payload : Payload
  data : Option (List UInt8)
  stream : CryptoStream
  queue : LevelQueue

/-- The end of `prepareInitialPacket`: lay out, check the size, commit. -/
def layOutInitial (u : UPacketPacker) (hdr : ExtendedHeader) (hdrLen : Nat) (pl : Payload)
    (c : CryptoPacket) (deferred : List CryptoFrame) (maxSize : Int) :
    Except PackFailure Prepared :=
  let available := maxSize - hdrLen - sealerOverhead
  (u.marshalInitialPacketPayload pl available).bind fun (data, cryptoEnd) =>
    let data := data ++ List.replicate (tinyPadding hdr.packetNumberLen data.length) 0x0
    if available < data.length then .error (.layoutExceedsBudget available)
    else
      (ackLength pl.ack).bind fun ackLen =>
        let hasRetransmission := u.retransmissionQueue.initial.hasData
        (pl.frames.foldlM (Kept.keepFrame cryptoEnd hasRetransmission u.initialStream.writeBuf)
          ⟨[], [], c.stream, ackLen⟩).map fun k =>
            { hdr := hdr
              payload := { pl with frames := k.frames, length := k.length }
              data := if k.frames.isEmpty then none else some data
              stream := k.stream
              queue := { c.queue with cryptoData := k.unsent ++ c.queue.cryptoData ++ deferred } }

def prepareInitialPacket (u : UPacketPacker) (maxSize : Int) (onlyAck : Bool) :
    Except PackFailure Prepared :=
  let stream := u.initialStream
  let queue := u.retransmissionQueue.initial
  if !onlyAck && (stream.hasData || queue.hasData) && maxSize < u.initialDatagramMinSize then
    .error (.minimumExceedsBudget u.initialDatagramMinSize maxSize)
  else
    let (staged, deferred) := u.stage onlyAck queue.cryptoData
    (u.maybeGetCryptoPacket stream { queue with cryptoData := staged } (maxSize - sealerOverhead)
      .initial .initial onlyAck true).bind fun c =>
        (dropEmptyCrypto c.payload).bind fun pl =>
          match c.hdr with
          | none => .ok ⟨none, pl, none, stream, queue⟩
          | some hdr =>
            (orTooLarge hdr.getLength).bind fun hdrLen =>
              if 0 < pl.length ∧ maxSize < hdrLen + pl.length + sealerOverhead then
                .error (.framesExceedBudget maxSize)
              else if pl.length = 0 ∨ onlyAck ∨ pl.frames = [] then
                if !onlyAck && pl.length = 0 && (stream.hasData || queue.hasData) then
                  .error (.framesDoNotFit maxSize)
                else .ok ⟨hdr, pl, none, stream, queue⟩
              else u.layOutInitial hdr hdrLen pl c deferred maxSize

/-- The packer after an Initial packet was prepared. -/
def commit (u : UPacketPacker) (r : Prepared) : UPacketPacker :=
  { u with
    initialStream := r.stream
    retransmissionQueue := { u.retransmissionQueue with initial := r.queue } }

/-! ## The other packets of a datagram -/

def minCoalescedPacketSize : Int := 128

/-- A long header packet that is going to be written. -/
structure LongChoice where
  hdr : ExtendedHeader
  payload : Payload
  sealer : Sealer

/-- The packet with application data. -/
inductive AppChoice
  | none
  | zeroRTT (c : LongChoice)
  | oneRTT (payload : Payload) (sealer : Sealer) (keyPhaseOne : Bool)

def AppChoice.isNone : AppChoice → Bool
  | .none => true
  | .zeroRTT _ => false
  | .oneRTT _ _ _ => false

/-- Whether another packet is coalesced with those of `size` bytes. -/
def roomForMore (onlyAck : Bool) (maxSize : Int) (size : Nat) : Bool :=
  (onlyAck && size == 0) || (!onlyAck && size < maxSize - minCoalescedPacketSize)

def initialSize (r : Prepared) : Except PackFailure Nat :=
  match r.hdr with
  | none => .ok 0
  | some hdr =>
    if r.payload.length = 0 then .ok 0
    else
      match r.data with
      | some data =>
        (orTooLarge hdr.getLength).map fun hdrLen => hdrLen + data.length + sealerOverhead
      | none => (longHeaderPacketLength hdr r.payload).map fun l => l + sealerOverhead

/-- The Handshake packet, and the size with it. -/
def chooseHandshake (u : UPacketPacker) (onlyAck : Bool) (maxSize : Int) (size : Nat) :
    Except PackFailure (Option LongChoice × Nat) :=
  if roomForMore onlyAck maxSize size then
    match u.cryptoSetup.handshake with
    | none => .ok (none, size)
    | some s =>
      (u.maybeGetCryptoPacket u.handshakeStream u.retransmissionQueue.handshake
        (maxSize - size - sealerOverhead) .handshake .handshake onlyAck (size == 0)).bind
          fun c =>
            match c.hdr with
            | none => .ok (none, size)
            | some hdr =>
              if c.payload.length = 0 then .ok (none, size)
              else (longHeaderPacketLength hdr c.payload).map fun l =>
                (some ⟨hdr, c.payload, s⟩, size + (l + sealerOverhead))
  else .ok (none, size)

/-- The packet with application data, the size with it, and the DATAGRAM frames that are still
queued. -/
structure AppChosen where
  app : AppChoice
  size : Nat
  datagramQueue : QueuedDatagrams

/-- The 1-RTT packet. -/
def chooseOneRTT (u : UPacketPacker) (onlyAck : Bool) (maxSize : Int) (size : Nat) (s : Sealer)
    (keyPhaseOne : Bool) : Except PackFailure AppChosen :=
  let pnLen := (u.pnManager .oneRTT).2
  let hdrLen := Wire.shortHeaderLen u.destConnID pnLen
  (u.maybeGetAppDataPacket (maxSize - size - hdrLen - sealerOverhead) onlyAck (size == 0)).map
    fun (pl, queue) =>
      if pl.length = 0 then ⟨.none, size, queue⟩
      else
        ⟨.oneRTT pl s keyPhaseOne,
          size + (shortHeaderPacketLength u.destConnID pnLen pl + sealerOverhead), queue⟩

/-- The 0-RTT packet. -/
def chooseZeroRTT (u : UPacketPacker) (maxSize : Int) (size : Nat) (s : Sealer) :
    Except PackFailure AppChosen :=
  let hdr := u.getLongHeader .zeroRTT .zeroRTT
  (orTooLarge hdr.getLength).bind fun hdrLen =>
    (u.maybeGetAppDataPacket (maxSize - size - hdrLen - sealerOverhead) false false).bind
      fun (pl, queue) =>
        if pl.length = 0 then .ok ⟨.none, size, queue⟩
        else (longHeaderPacketLength hdr pl).map fun l =>
          ⟨.zeroRTT ⟨hdr, pl, s⟩, size + (l + sealerOverhead), queue⟩

/-- The packet with application data, if there is room for one. -/
def chooseAppData (u : UPacketPacker) (onlyAck : Bool) (maxSize : Int) (size : Nat) :
    Except PackFailure AppChosen :=
  if roomForMore onlyAck maxSize size then
    match u.cryptoSetup.oneRTT with
    | some (s, keyPhaseOne) => u.chooseOneRTT onlyAck maxSize size s keyPhaseOne
    | none =>
      if u.perspective = .client ∧ onlyAck = false then
        match u.cryptoSetup.zeroRTT with
        | none => .ok ⟨.none, size, u.datagramQueue⟩
        | some s => u.chooseZeroRTT maxSize size s
      else .ok ⟨.none, size, u.datagramQueue⟩
  else .ok ⟨.none, size, u.datagramQueue⟩

/-! ## Writing the datagram -/

def padInitialDatagram (u : UPacketPacker) (buffer : List UInt8) : List UInt8 :=
  buffer ++ List.replicate (u.initialDatagramMinSize - buffer.length).toNat 0x0

def appendInitialPacket (buffer : List UInt8) (header : ExtendedHeader) (pl : Payload)
    (uPayload : List UInt8) (s : Sealer) : Except PackFailure (List UInt8 × LongHeaderPacket) :=
  appendSealed buffer header pl uPayload s

/-- The Initial packet: in its layout, or, without a frame, as any other packet. -/
def appendInitial (u : UPacketPacker) (r : Prepared) (s : Sealer) (onlyAck : Bool) (size : Nat)
    (maxSize : Int) : Except PackFailure (List UInt8 × List LongHeaderPacket) :=
  match r.hdr with
  | none => .ok ([], [])
  | some hdr =>
    if r.payload.length = 0 then .ok ([], [])
    else if onlyAck ∨ r.payload.frames = [] then
      let padding := u.initialPaddingLen r.payload.frames size maxSize
      (u.appendLongHeaderPacket [] hdr r.payload padding s).map fun (buffer, packet) =>
        (buffer, [packet])
    else
      (appendInitialPacket [] hdr r.payload (r.data.getD []) s).map fun (buffer, packet) =>
        (buffer, [packet])

/-- A long header packet behind the ones that are there. -/
def appendChoice (u : UPacketPacker) (buffer : List UInt8) (packets : List LongHeaderPacket) :
    Option LongChoice → Except PackFailure (List UInt8 × List LongHeaderPacket)
  | none => .ok (buffer, packets)
  | some c =>
    (u.appendLongHeaderPacket buffer c.hdr c.payload 0 c.sealer).map fun (buffer, packet) =>
      (buffer, packets ++ [packet])

/-- The packet with application data.  A short header packet takes the padding in, since it
extends to the end of the datagram. -/
def appendAppData (u : UPacketPacker) (buffer : List UInt8) (packets : List LongHeaderPacket)
    (laidOut : Bool) (size : Nat) (maxSize : Int) : AppChoice → Except PackFailure CoalescedPacket
  | .none => .ok ⟨buffer, packets, none⟩
  | .zeroRTT c =>
    (u.appendChoice buffer packets (some c)).map fun (buffer, packets) => ⟨buffer, packets, none⟩
  | .oneRTT pl s keyPhaseOne =>
    let padding := if laidOut then (u.initialDatagramMinSize - size).toNat else 0
    (u.appendShortHeaderPacket buffer pl padding maxSize s keyPhaseOne).map
      fun (buffer, packet) => ⟨buffer, packets, some packet⟩

/-- The padding after the last packet, for a datagram with a laid out Initial. -/
def finish (u : UPacketPacker) (laidOut : Bool) (packet : CoalescedPacket) : CoalescedPacket :=
  if laidOut then { packet with buffer := u.padInitialDatagram packet.buffer } else packet

/-- All the packets of a datagram, written one behind the other. -/
def assemble (u : UPacketPacker) (r : Prepared) (s : Sealer) (onlyAck : Bool)
    (handshake : Option LongChoice) (app : AppChoice) (size : Nat) (maxSize : Int) :
    Except PackFailure CoalescedPacket :=
  (u.appendInitial r s onlyAck size maxSize).bind fun (buffer, packets) =>
    (u.appendChoice buffer packets handshake).bind fun (buffer, packets) =>
      (u.appendAppData buffer packets r.data.isSome size maxSize app).map fun packet =>
        u.finish r.data.isSome packet

/-- The packets behind the Initial packet: the Handshake packet, and what is chosen after it. -/
def chooseRest (u : UPacketPacker) (r : Prepared) (onlyAck : Bool) (maxSize : Int) :
    Except PackFailure (Option LongChoice × AppChosen) :=
  (initialSize r).bind fun size =>
    (u.chooseHandshake onlyAck maxSize size).bind fun (handshake, size) =>
      (u.chooseAppData onlyAck maxSize size).map fun c => (handshake, c)

/-- What follows the Initial packet in `PackCoalescedPacket`. -/
def packAfterInitial (u : UPacketPacker) (r : Prepared) (s : Sealer) (onlyAck : Bool)
    (maxSize : Int) : Except PackFailure (Option CoalescedPacket) :=
  (u.chooseRest r onlyAck maxSize).bind fun (handshake, c) =>
    if r.payload.length = 0 ∧ handshake.isNone ∧ c.app.isNone then .ok none
    else (u.assemble r s onlyAck handshake c.app c.size maxSize).map some

/-- The packer after the packets of a datagram were chosen. -/
def afterChoice (u : UPacketPacker) (r : Prepared) (onlyAck : Bool) (maxSize : Int) :
    UPacketPacker :=
  match u.chooseRest r onlyAck maxSize with
  | .error _ => u
  | .ok (_, c) => { u with datagramQueue := c.datagramQueue }

def Prepared.nothing (u : UPacketPacker) : Prepared :=
  ⟨none, .empty, none, u.initialStream, u.retransmissionQueue.initial⟩

/-- A sealer for where none is used. -/
def noSealer : Sealer where
  sealPayload _ payload _ := payload ++ List.replicate sealerOverhead 0x0
  mask _ _ := 0
  length_sealPayload := length_zeroTag

/-- `PackCoalescedPacket`: the packer afterwards, and the packet. -/
def packCoalescedPacket (u : UPacketPacker) (onlyAck : Bool) (maxSize : Int) :
    UPacketPacker × Except PackFailure (Option CoalescedPacket) :=
  match u.cryptoSetup.initial with
  | none =>
    (u.afterChoice (.nothing u) onlyAck maxSize,
      u.packAfterInitial (.nothing u) noSealer onlyAck maxSize)
  | some s =>
    match u.prepareInitialPacket maxSize onlyAck with
    | .error e => (u, .error e)
    | .ok r =>
      ((u.afterChoice r onlyAck maxSize).commit r, u.packAfterInitial r s onlyAck maxSize)

/-! ## Probe packets -/

/-- The probe packet of a prepared Initial. -/
def probeInitial (u : UPacketPacker) (r : Prepared) (s : Sealer) (maxPacketSize : Int) :
    Except PackFailure (Option CoalescedPacket) :=
  match r.hdr with
  | none => .ok none
  | some hdr =>
    if r.payload.length = 0 then .ok none
    else
      (longHeaderPacketLength hdr r.payload).bind fun l =>
        match r.data with
        | none =>
          let padding := u.initialPaddingLen r.payload.frames (l + sealerOverhead) maxPacketSize
          (u.appendLongHeaderPacket [] hdr r.payload padding s).map fun (buffer, packet) =>
            some ⟨buffer, [packet], none⟩
        | some data =>
          (appendInitialPacket [] hdr r.payload data s).map fun (buffer, packet) =>
            some ⟨u.padInitialDatagram buffer, [packet], none⟩

/-- The probe packet of the Handshake packet number space. -/
def probeHandshake (u : UPacketPacker) (s : Sealer) (maxPacketSize : Int) :
    Except PackFailure (Option CoalescedPacket) :=
  (u.maybeGetCryptoPacket u.handshakeStream u.retransmissionQueue.handshake
    (maxPacketSize - sealerOverhead) .handshake .handshake false true).bind fun c =>
      match c.hdr with
      | none => .ok none
      | some hdr =>
        if c.payload.length = 0 then .ok none
        else (u.appendLongHeaderPacket [] hdr c.payload 0 s).map fun (buffer, packet) =>
          some ⟨buffer, [packet], none⟩

/-- The probe packet of the application data packet number space. -/
def probeOneRTT (u : UPacketPacker) (s : Sealer) (keyPhaseOne : Bool) (maxPacketSize : Int) :
    UPacketPacker × Except PackFailure (Option CoalescedPacket) :=
  let hdrLen := Wire.shortHeaderLen u.destConnID (u.pnManager .oneRTT).2
  match u.maybeGetAppDataPacket (maxPacketSize - sealerOverhead - hdrLen) false true with
  | .error e => (u, .error e)
  | .ok (pl, queue) =>
    ({ u with datagramQueue := queue },
      if pl.length = 0 then .ok none
      else (u.appendShortHeaderPacket [] pl 0 maxPacketSize s keyPhaseOne).map
        fun (buffer, packet) => some ⟨buffer, [], some packet⟩)

def maybePackPTOProbePacket (u : UPacketPacker) (encLevel : EncryptionLevel)
    (maxPacketSize : Int) : UPacketPacker × Except PackFailure (Option CoalescedPacket) :=
  match encLevel with
  | .initial =>
    match u.cryptoSetup.initial with
    | none => (u, .error .noKeys)
    | some s =>
      match u.prepareInitialPacket maxPacketSize false with
      | .error e => (u, .error e)
      | .ok r => (u.commit r, u.probeInitial r s maxPacketSize)
  | .handshake =>
    match u.cryptoSetup.handshake with
    | none => (u, .error .noKeys)
    | some s => (u, u.probeHandshake s maxPacketSize)
  | .oneRTT =>
    match u.cryptoSetup.oneRTT with
    | none => (u, .error .noKeys)
    | some (s, keyPhaseOne) => u.probeOneRTT s keyPhaseOne maxPacketSize
  | .zeroRTT => (u, .error .unknownEncryptionLevel)

/-! ## What a prepared packet is -/

section Prepare

variable {u : UPacketPacker} {maxSize : Int} {onlyAck : Bool}

/-- The frames that `prepareInitialPacket` collects from the copies. -/
def collect (u : UPacketPacker) (maxSize : Int) (onlyAck : Bool) :
    Except PackFailure CryptoPacket :=
  u.maybeGetCryptoPacket u.initialStream
    { u.retransmissionQueue.initial with
      cryptoData := (u.stage onlyAck u.retransmissionQueue.initial.cryptoData).1 }
    (maxSize - sealerOverhead) .initial .initial onlyAck true

/-- A packet with a layout: what was marshalled, and what became of the frames. -/
structure LaidOut (u : UPacketPacker) (hdr : ExtendedHeader) (hdrLen : Nat) (pl : Payload)
    (c : CryptoPacket) (deferred : List CryptoFrame) (maxSize : Int) (data : List UInt8)
    (cryptoEnd ackLen : Nat) (k : Kept) (r : Prepared) : Prop where
  marshalled : u.marshalInitialPacketPayload pl (maxSize - hdrLen - sealerOverhead) =
    .ok (data, cryptoEnd)
  size_le : ((data.length + tinyPadding hdr.packetNumberLen data.length : Nat) : Int) ≤
    maxSize - hdrLen - sealerOverhead
  ackLen_eq : ackLength pl.ack = .ok ackLen
  kept : pl.frames.foldlM (Kept.keepFrame cryptoEnd u.retransmissionQueue.initial.hasData
    u.initialStream.writeBuf) ⟨[], [], c.stream, ackLen⟩ = .ok k
  prepared : r =
    { hdr := hdr
      payload := { pl with frames := k.frames, length := k.length }
      data := if k.frames.isEmpty then none else
        some (data ++ List.replicate (tinyPadding hdr.packetNumberLen data.length) 0x0)
      stream := k.stream
      queue := { c.queue with cryptoData := k.unsent ++ c.queue.cryptoData ++ deferred } }

theorem layOutInitial_eq_ok {hdr : ExtendedHeader} {hdrLen : Nat} {pl : Payload} {c : CryptoPacket}
    {deferred : List CryptoFrame} {r : Prepared}
    (h : u.layOutInitial hdr hdrLen pl c deferred maxSize = .ok r) : ∃ data cryptoEnd ackLen k,
      LaidOut u hdr hdrLen pl c deferred maxSize data cryptoEnd ackLen k r := by
  obtain ⟨⟨data, cryptoEnd⟩, hmarshal, h⟩ := Except.bind_eq_ok_iff.mp h
  dsimp only at h
  split_ifs at h with hsize
  obtain ⟨ackLen, hackLen, h⟩ := Except.bind_eq_ok_iff.mp h
  obtain ⟨k, hk, h⟩ := Except.map_eq_ok_iff.mp h
  refine ⟨data, cryptoEnd, ackLen, k, hmarshal, ?_, hackLen, hk, h.symm⟩
  rw [List.length_append, List.length_replicate] at hsize
  exact Int.not_lt.mp hsize

/-- **What `prepareInitialPacket` returns**: nothing to send, an ACK at most, or a layout.
Only a layout changes the crypto stream and the queue. -/
inductive Prepares (u : UPacketPacker) (maxSize : Int) (onlyAck : Bool) : Prepared → Prop
  | nothing {c : CryptoPacket} {pl : Payload} : u.collect maxSize onlyAck = .ok c →
      dropEmptyCrypto c.payload = .ok pl → c.hdr = none →
      Prepares u maxSize onlyAck
        ⟨none, pl, none, u.initialStream, u.retransmissionQueue.initial⟩
  | noFrames {c : CryptoPacket} {pl : Payload} {hdr : ExtendedHeader} :
      u.collect maxSize onlyAck = .ok c → dropEmptyCrypto c.payload = .ok pl →
      c.hdr = some hdr → (pl.length = 0 ∨ onlyAck = true ∨ pl.frames = []) →
      Prepares u maxSize onlyAck
        ⟨hdr, pl, none, u.initialStream, u.retransmissionQueue.initial⟩
  | laidOut {c : CryptoPacket} {pl : Payload} {hdr : ExtendedHeader} {hdrLen : Nat} {r : Prepared} :
      u.collect maxSize onlyAck = .ok c → dropEmptyCrypto c.payload = .ok pl →
      c.hdr = some hdr → hdr.getLength = some hdrLen →
      (onlyAck = false → u.initialStream.hasData = true ∨
        u.retransmissionQueue.initial.hasData = true → u.initialDatagramMinSize ≤ maxSize) →
      onlyAck = false → pl.frames ≠ [] →
      u.layOutInitial hdr hdrLen pl c
        (u.stage onlyAck u.retransmissionQueue.initial.cryptoData).2 maxSize = .ok r →
      Prepares u maxSize onlyAck r

theorem prepareInitialPacket_eq_ok {r : Prepared}
    (h : u.prepareInitialPacket maxSize onlyAck = .ok r) : Prepares u maxSize onlyAck r := by
  simp only [prepareInitialPacket] at h
  split_ifs at h with hmin
  obtain ⟨c, hc, h⟩ := Except.bind_eq_ok_iff.mp h
  obtain ⟨pl, hpl, h⟩ := Except.bind_eq_ok_iff.mp h
  split at h
  · rename_i hnone
    cases h
    exact .nothing hc hpl hnone
  · rename_i hdr hhdr
    obtain ⟨hdrLen, hlen, h⟩ := Except.bind_eq_ok_iff.mp h
    split at h
    · cases h
    · split at h
      · rename_i hno
        split_ifs at h
        cases h
        exact .noFrames hc hpl hhdr hno
      · rename_i hno
        obtain ⟨-, hno⟩ := not_or.mp hno
        obtain ⟨honly, hframes⟩ := not_or.mp hno
        refine .laidOut hc hpl hhdr (orTooLarge_eq_ok hlen) (fun hfalse hdata => ?_)
          (Bool.eq_false_iff.mpr honly) hframes h
        refine Int.not_lt.mp fun hlt => hmin ?_
        rw [hfalse, Bool.or_eq_true_iff.mpr hdata, decide_eq_true hlt]
        rfl

end Prepare

end UPacketPacker

end UQuic
