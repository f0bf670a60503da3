/-
# `UQuic.AckHandler.SentPacketHandler` — acknowledgements, losses and probes

`internal/ackhandler/sent_packet_handler.go` and `packet_number_generator.go`,
as functions on the handler's state.  Every function that can panic or return an
error is an `Except Failure`.

Inputs the handler takes from elsewhere are arguments here:

    RTT       the values `rttStats` yields in this call
    rnd       the outcome of the packet number generator's `rng`

Neither the congestion controller nor the ECN tracker feeds back into what is
modelled, so the calls to them are left out; frames are followed by the log of
their `OnAcked` and `OnLost` calls.
-/
import UQuic.AckHandler.SentPacketHistory
import UQuic.Wire.AckFrame
import UQuic.Lib.Machine

namespace UQuic.AckHandler

open UQuic.Wire (AckRange AckFrame)

/-! ## Packet numbers -/

/-- `sequentialPacketNumberGenerator` and `skippingPacketNumberGenerator`. -/
inductive PacketNumberGenerator
  | sequential (next : Nat)
  | skipping (period maxPeriod next nextToSkip : Nat)
  deriving DecidableEq, Repr

namespace PacketNumberGenerator

/-- `generateNewSkip`; `rng.Int31n(2 * period)` yields `rnd % (2 * period)`. -/
def generateNewSkip (period maxPeriod next rnd : Nat) : PacketNumberGenerator :=
  .skipping (min (2 * period) maxPeriod) maxPeriod next (next + 3 + rnd % (2 * period))

def skipPacketInitialPeriod : Nat := 256

def skipPacketMaxPeriod : Nat := 128 * 1024

/-- The generator of a packet number space. -/
def new (initial : Nat) (isAppData : Bool) (rnd : Nat) : PacketNumberGenerator :=
  if isAppData then generateNewSkip skipPacketInitialPeriod skipPacketMaxPeriod initial rnd
  else .sequential initial

def peek : PacketNumberGenerator → Nat
  | .sequential next => next
  | .skipping _ _ next nextToSkip => if next = nextToSkip then next + 1 else next

/-- `Pop`: was the number before skipped, and the number. -/
def pop (rnd : Nat) : PacketNumberGenerator → PacketNumberGenerator × Bool × Nat
  | .sequential next => (.sequential (next + 1), false, next)
  | .skipping period maxPeriod next nextToSkip =>
    if next = nextToSkip then (generateNewSkip period maxPeriod (next + 2) rnd, true, next + 1)
    else (.skipping period maxPeriod (next + 1) nextToSkip, false, next)

end PacketNumberGenerator

/-! ## The state -/

/-- `packetNumberSpace`. -/
structure PacketNumberSpace where
  history : SentPacketHistory
  pns : PacketNumberGenerator
  lossTime : Int
  lastAckElicitingPacketTime : Int
  largestAcked : Int
  largestSent : Int
  deriving DecidableEq, Repr

/-- `newPacketNumberSpace`. -/
def PacketNumberSpace.new (initialPN : Nat) (isAppData : Bool) (rnd : Nat) : PacketNumberSpace :=
  ⟨.new, .new initialPN isAppData rnd, 0, 0, invalidPacketNumber, invalidPacketNumber⟩

/-- `SendMode`, as far as the handler stores it. -/
inductive SendMode
  | sendNone
  | sendPTOInitial
  | sendPTOHandshake
  | sendPTOAppData
  deriving DecidableEq, Repr

/-- `logging.TimerType`. -/
inductive TimerType
  | ack
  | pto
  | pathProbe
  deriving DecidableEq, Repr

/-- `alarmTimer`; `none` is the zero value. -/
structure AlarmTimer where
  time : Int
  timerType : Option TimerType
  encryptionLevel : Option EncryptionLevel
  deriving DecidableEq, Repr

/-- What the handlers of frames are told. -/
inductive FrameCallback
  | onAcked (frame : Nat)
  | onLost (frame : Nat)
  deriving DecidableEq, Repr

/-- What `rttStats` yields: the time threshold of loss detection, and the PTO
without and with the peer's ACK delay. -/
structure RTT where
  timeThreshold : Int
  pto : Int
  ptoInclMaxAckDelay : Int
  deriving DecidableEq, Repr

/-- `sentPacketHandler`. -/
structure SentPacketHandler where
  initialPackets : Option PacketNumberSpace
  handshakePackets : Option PacketNumberSpace
  appDataPackets : PacketNumberSpace
  peerCompletedAddressValidation : Bool
  bytesReceived : Nat
  bytesSent : Nat
  peerAddressValidated : Bool
  handshakeConfirmed : Bool
  lowestNotConfirmedAcked : Int
  bytesInFlight : Nat
  ptoCount : Nat
  ptoMode : SendMode
  numProbesToSend : Int
  alarm : AlarmTimer
  perspective : Perspective
  callbacks : List FrameCallback
  deriving DecidableEq, Repr

namespace SentPacketHandler

/-- `newSentPacketHandler`. -/
def new (initialPN : Nat) (clientAddressValidated : Bool) (pers : Perspective) (rnd : Nat) :
    SentPacketHandler where
  initialPackets := some (.new initialPN false rnd)
  handshakePackets := some (.new 0 false rnd)
  appDataPackets := .new 0 true rnd
  peerCompletedAddressValidation := pers == .server
  bytesReceived := 0
  bytesSent := 0
  peerAddressValidated := pers == .client || clientAddressValidated
  handshakeConfirmed := false
  lowestNotConfirmedAcked := 0
  bytesInFlight := 0
  ptoCount := 0
  ptoMode := .sendNone
  numProbesToSend := 0
  alarm := ⟨0, none, none⟩
  perspective := pers
  callbacks := []

/-- `getPacketNumberSpace`. -/
def space (h : SentPacketHandler) : EncryptionLevel → Option PacketNumberSpace
  | .initial => h.initialPackets
  | .handshake => h.handshakePackets
  | .zeroRTT | .oneRTT => some h.appDataPackets

def setSpace (h : SentPacketHandler) (s : PacketNumberSpace) : EncryptionLevel → SentPacketHandler
  | .initial => { h with initialPackets := some s }
  | .handshake => { h with handshakePackets := some s }
  | .zeroRTT | .oneRTT => { h with appDataPackets := s }

/-- Run an operation of the history of a space; a dropped space is a nil
pointer. -/
def onHistory (h : SentPacketHandler) (encLevel : EncryptionLevel)
    (f : SentPacketHistory → Except Failure SentPacketHistory) : Except Failure SentPacketHandler :=
  match h.space encLevel with
  | none => .error .nilDereference
  | some s => (f s.history).map fun history => h.setSpace { s with history := history } encLevel

/-! ## Timers -/

def amplificationFactor : Nat := 3

def isAmplificationLimited (h : SentPacketHandler) : Bool :=
  !h.peerAddressValidated && decide (amplificationFactor * h.bytesReceived ≤ h.bytesSent)

def hasOutstandingCryptoPackets (h : SentPacketHandler) : Bool :=
  h.initialPackets.any (·.history.hasOutstandingPackets) ||
    h.handshakePackets.any (·.history.hasOutstandingPackets)

/-- Take the time of the next space if there is none yet, or if it is earlier. -/
def earlier (best : Int × EncryptionLevel) (t : Int) (encLevel : EncryptionLevel) :
    Int × EncryptionLevel :=
  if isZeroTime best.1 || (!isZeroTime t && decide (t < best.1)) then (t, encLevel) else best

def getLossTimeAndSpace (h : SentPacketHandler) : Int × EncryptionLevel :=
  let best := match h.initialPackets with
    | some s => (s.lossTime, .initial)
    | none => (0, .initial)
  let best := match h.handshakePackets with
    | some s => earlier best s.lossTime .handshake
    | none => best
  earlier best h.appDataPackets.lossTime .oneRTT

/-- `maxPTODuration`: 60 s. -/
def maxPTODuration : Int := 60000000000

/-- `getScaledPTO`: the shift is one of an `int64`. -/
def getScaledPTO (h : SentPacketHandler) (pto : Int) : Int :=
  let scaled := Int.bmod (pto * 2 ^ h.ptoCount) (2 ^ 64)
  if maxPTODuration < scaled ∨ scaled ≤ 0 then maxPTODuration else scaled

/-- The PTO of a space with outstanding packets, if it is earlier. -/
def earlierPTO (best : Int × Option EncryptionLevel) (s : Option PacketNumberSpace) (pto : Int)
    (encLevel : EncryptionLevel) : Int × Option EncryptionLevel :=
  match s with
  | none => best
  | some s =>
    if s.history.hasOutstandingPackets && !isZeroTime s.lastAckElicitingPacketTime &&
        (isZeroTime best.1 || (!isZeroTime (s.lastAckElicitingPacketTime + pto) &&
          decide (s.lastAckElicitingPacketTime + pto < best.1))) then
      (s.lastAckElicitingPacketTime + pto, some encLevel)
    else best

def getPTOTimeAndSpace (h : SentPacketHandler) (now : Int) (rtt : RTT) :
    Int × Option EncryptionLevel :=
  if !h.handshakeConfirmed && !h.hasOutstandingCryptoPackets then
    if h.peerCompletedAddressValidation then (0, none)
    else (now + h.getScaledPTO rtt.pto,
      some (if h.initialPackets.isSome then .initial else .handshake))
  else
    let best := earlierPTO (0, none) h.initialPackets (h.getScaledPTO rtt.pto) .initial
    let best := earlierPTO best h.handshakePackets (h.getScaledPTO rtt.pto) .handshake
    if h.handshakeConfirmed then
      earlierPTO best (some h.appDataPackets) (h.getScaledPTO rtt.ptoInclMaxAckDelay) .oneRTT
    else best

/-- `pathProbePacketLossTimeout`: 1 s. -/
def pathProbePacketLossTimeout : Int := 1000000000

/-- The time at which the first path probe counts as lost; zero without one. -/
def pathProbeLossTime (h : SentPacketHandler) : Int :=
  match h.appDataPackets.history.firstOutstandingPathProbe with
  | some p => p.sendTime + pathProbePacketLossTimeout
  | none => 0

def lossDetectionTime (h : SentPacketHandler) (now : Int) (rtt : RTT) : AlarmTimer :=
  if h.peerCompletedAddressValidation && !h.hasOutstandingCryptoPackets &&
      !h.appDataPackets.history.hasOutstandingPackets &&
      !h.appDataPackets.history.hasOutstandingPathProbes then ⟨0, none, none⟩
  else if h.isAmplificationLimited then ⟨0, none, none⟩
  else
    let (lossTime, lossLevel) := h.getLossTimeAndSpace
    let (ptoTime, ptoLevel) := h.getPTOTimeAndSpace now rtt
    if !isZeroTime lossTime &&
        (isZeroTime h.pathProbeLossTime || decide (lossTime < h.pathProbeLossTime)) then
      ⟨lossTime, some .ack, some lossLevel⟩
    else if !isZeroTime ptoTime &&
        (isZeroTime h.pathProbeLossTime || decide (ptoTime < h.pathProbeLossTime)) then
      ⟨ptoTime, some .pto, ptoLevel⟩
    else if !isZeroTime h.pathProbeLossTime then ⟨h.pathProbeLossTime, some .pathProbe, ptoLevel⟩
    else ⟨0, none, none⟩

def setLossDetectionTimer (h : SentPacketHandler) (now : Int) (rtt : RTT) : SentPacketHandler :=
  { h with alarm := h.lossDetectionTime now rtt }

/-! ## Bytes in flight and frames -/

/-- `removeFromBytesInFlight`.  The source also clears the packet's flag; every
caller has taken the packet out of the history or is about to. -/
def removeFromBytesInFlight (h : SentPacketHandler) (p : Packet) :
    Except Failure SentPacketHandler :=
  if p.includedInBytesInFlight then
    if h.bytesInFlight < p.length then .error .negativeBytesInFlight
    else .ok { h with bytesInFlight := h.bytesInFlight - p.length }
  else .ok h

/-- The frames of a packet whose handlers are told, in order. -/
def handled (p : Packet) : List Nat :=
  ((p.frames ++ p.streamFrames).filter (·.hasHandler)).map (·.frame)

def queueFramesForRetransmission (h : SentPacketHandler) (p : Packet) :
    Except Failure SentPacketHandler :=
  if p.frames = [] ∧ p.streamFrames = [] then .error .noFrames
  else .ok { h with callbacks := h.callbacks ++ (handled p).map FrameCallback.onLost }

/-! ## Sending -/

def popPacketNumber (h : SentPacketHandler) (encLevel : EncryptionLevel) (rnd : Nat) :
    Except Failure (SentPacketHandler × Nat) :=
  match h.space encLevel with
  | none => .error .nilDereference
  | some s =>
    let (pns, skipped, pn) := s.pns.pop rnd
    if skipped then
      (s.history.skippedPacket ((pn : Int) - 1)).map fun history =>
        (h.setSpace { s with pns := pns, history := history } encLevel, pn)
    else .ok (h.setSpace { s with pns := pns } encLevel, pn)

/-- The arguments of `SentPacket`. -/
structure Sent where
  time : Int
  pn : Nat
  largestAcked : Int
  streamFrames : List Frame
  frames : List Frame
  encLevel : EncryptionLevel
  size : Nat
  isPathMTUProbePacket : Bool
  isPathProbePacket : Bool
  deriving DecidableEq, Repr

/-- `SentPacket` for a path probe packet. -/
def sentPathProbe (h : SentPacketHandler) (a : Sent) : Except Failure SentPacketHandler :=
  h.onHistory a.encLevel (·.sentPathProbePacket { Packet.zero a.pn with
      sendTime := a.time, encryptionLevel := some a.encLevel, length := a.size,
      frames := a.frames, isPathProbePacket := true })

/-- `SentPacket` for a packet without ack-eliciting frames. -/
def sentNonAckEliciting (h : SentPacketHandler) (a : Sent) (rtt : RTT) :
    Except Failure SentPacketHandler :=
  (h.onHistory a.encLevel (·.sentNonAckElicitingPacket a.pn)).map fun h =>
    if h.peerCompletedAddressValidation then h else h.setLossDetectionTimer a.time rtt

/-- The entry of an ack-eliciting packet. -/
def Sent.packet (a : Sent) : Packet where
  sendTime := a.time
  packetNumber := a.pn
  streamFrames := a.streamFrames
  frames := a.frames
  largestAcked := a.largestAcked
  length := a.size
  encryptionLevel := some a.encLevel
  isPathMTUProbePacket := a.isPathMTUProbePacket
  includedInBytesInFlight := true
  declaredLost := false
  skippedPacket := false
  isPathProbePacket := false

/-- `SentPacket` for an ack-eliciting packet: the counters. -/
def countSent (h : SentPacketHandler) (a : Sent) : SentPacketHandler :=
  { h with
    bytesInFlight := h.bytesInFlight + a.size
    numProbesToSend := if 0 < h.numProbesToSend then h.numProbesToSend - 1 else h.numProbesToSend }

/-- `SentPacket` for an ack-eliciting packet. -/
def sentAckEliciting (h : SentPacketHandler) (s : PacketNumberSpace) (a : Sent) (rtt : RTT) :
    Except Failure SentPacketHandler :=
  ((h.setSpace { s with lastAckElicitingPacketTime := a.time } a.encLevel).countSent a
    |>.onHistory a.encLevel (·.sentAckElicitingPacket a.packet)).map
      (·.setLossDetectionTimer a.time rtt)

def sentPacket (h : SentPacketHandler) (a : Sent) (rtt : RTT) : Except Failure SentPacketHandler :=
  match h.space a.encLevel with
  | none => .error .nilDereference
  | some s =>
    let s := { s with largestSent := a.pn }
    let h := { h with bytesSent := h.bytesSent + a.size }.setSpace s a.encLevel
    if a.isPathProbePacket then (h.sentPathProbe a).map (·.setLossDetectionTimer a.time rtt)
    else if a.streamFrames = [] ∧ a.frames = [] then h.sentNonAckEliciting a rtt
    else h.sentAckEliciting s a rtt

/-! ## Losses -/

/-- `protocol.TimerGranularity`: 1 ms. -/
def timerGranularity : Int := 1000000

def packetThreshold : Int := 3

/-- A regular packet leaves the bytes in flight and its frames are queued. -/
def loseRegular (h : SentPacketHandler) (p : Packet) : Except Failure SentPacketHandler :=
  if p.skippedPacket || p.isPathProbePacket then .ok h
  else (h.removeFromBytesInFlight p).bind (·.queueFramesForRetransmission p)

/-- The loss timer, set for the first packet that is not lost yet. -/
def setLossTime (h : SentPacketHandler) (encLevel : EncryptionLevel) (t : Int) :
    SentPacketHandler :=
  match h.space encLevel with
  | none => h
  | some s => if isZeroTime s.lossTime then h.setSpace { s with lossTime := t } encLevel else h

/-- The loop of `detectLostPackets`. -/
def detectLostLoop (encLevel : EncryptionLevel) (largestAcked lostSendTime lossDelay : Int) :
    List Packet → SentPacketHandler → Except Failure SentPacketHandler
  | [], h => .ok h
  | p :: rest, h =>
    if largestAcked < p.packetNumber then .ok h
    else if p.sendTime ≤ lostSendTime ∨ p.packetNumber + packetThreshold ≤ largestAcked then
      ((h.onHistory encLevel (·.declareLost p.packetNumber)).bind (·.loseRegular p)).bind
        (detectLostLoop encLevel largestAcked lostSendTime lossDelay rest)
    else detectLostLoop encLevel largestAcked lostSendTime lossDelay rest
      (h.setLossTime encLevel (p.sendTime + lossDelay))

def detectLostPackets (h : SentPacketHandler) (now : Int) (encLevel : EncryptionLevel) (rtt : RTT) :
    Except Failure SentPacketHandler :=
  match h.space encLevel with
  | none => .error .nilDereference
  | some s =>
    let lossDelay := max rtt.timeThreshold timerGranularity
    detectLostLoop encLevel s.largestAcked (now - lossDelay) lossDelay s.history.entries
      (h.setSpace { s with lossTime := 0 } encLevel)

/-- A lost path probe: its frames' handlers are told without a check for nil. -/
def losePathProbe (h : SentPacketHandler) (p : Packet) : Except Failure SentPacketHandler :=
  if p.frames.all (·.hasHandler) then
    .ok { h with
      callbacks := h.callbacks ++ p.frames.map fun f => .onLost f.frame
      appDataPackets := { h.appDataPackets with
        history := (h.appDataPackets.history.removePathProbe p.packetNumber).1 } }
  else .error .nilDereference

def detectLostPathProbes (h : SentPacketHandler) (now : Int) : Except Failure SentPacketHandler :=
  (h.appDataPackets.history.pathProbePackets.filter
    fun p => p.sendTime ≤ now - pathProbePacketLossTimeout).foldlM losePathProbe h

/-- `QueueProbePacket`; the second component says whether a packet was queued. -/
def queueProbePacket (h : SentPacketHandler) (encLevel : EncryptionLevel) :
    Except Failure (SentPacketHandler × Bool) :=
  match h.space encLevel with
  | none => .error .nilDereference
  | some s =>
    match s.history.firstOutstanding with
    | none => .ok (h, false)
    | some p =>
      (((h.queueFramesForRetransmission p).bind (·.removeFromBytesInFlight p)).bind
        (·.onHistory encLevel (·.declareLost p.packetNumber))).map (·, true)

/-! ## Acknowledgements -/

/-- Advance to the range a packet number has to be compared with; `ranges` are
the ranges from `ackRangeIndex` on, lowest first. -/
def advanceRange (pn : Int) : List AckRange → List AckRange
  | r :: r' :: rest => if r.largest < pn then advanceRange pn (r' :: rest) else r :: r' :: rest
  | ranges => ranges

/-- Is the packet number in its range?  Only asked if the frame has gaps. -/
def inRange (ack : AckFrame) (pn : Int) (ranges : List AckRange) :
    Except Failure (List AckRange × Bool) :=
  if ack.hasMissingRanges then
    match advanceRange pn ranges with
    | [] => .error .nilDereference
    | r :: rest =>
      if pn < r.smallest then .ok (r :: rest, false)
      else if r.largest < pn then .error (.ackedWrongPacket pn)
      else .ok (r :: rest, true)
  else .ok (ranges, true)

/-- The first loop of `detectAndRemoveAckedPackets`: collect the packets that the
frame acknowledges.  A path probe is taken from its own list. -/
def collectAcked (ack : AckFrame) (encLevel : EncryptionLevel) (lowestAcked largestAcked : Int) :
    List Packet → List AckRange → SentPacketHistory → List Packet →
      Except Failure (SentPacketHistory × List Packet)
  | [], _, history, acked => .ok (history, acked)
  | p :: rest, ranges, history, acked =>
    if p.packetNumber < lowestAcked then
      collectAcked ack encLevel lowestAcked largestAcked rest ranges history acked
    else if largestAcked < p.packetNumber then .ok (history, acked)
    else
      match inRange ack p.packetNumber ranges with
      | .error e => .error e
      | .ok (ranges, false) =>
        collectAcked ack encLevel lowestAcked largestAcked rest ranges history acked
      | .ok (ranges, true) =>
        if p.skippedPacket then .error (.ackForSkipped p.packetNumber encLevel)
        else if p.isPathProbePacket then
          collectAcked ack encLevel lowestAcked largestAcked rest ranges
            (history.removePathProbe p.packetNumber).1
            (acked ++ (history.removePathProbe p.packetNumber).2.toList)
        else
          collectAcked ack encLevel lowestAcked largestAcked rest ranges history (acked ++ [p])

/-- What an acknowledged packet confirms, and the callbacks of its frames. -/
def confirmAcked (encLevel : EncryptionLevel) (h : SentPacketHandler) (p : Packet) :
    SentPacketHandler :=
  { h with
    lowestNotConfirmedAcked :=
      if p.largestAcked ≠ invalidPacketNumber ∧ encLevel = .oneRTT then
        max h.lowestNotConfirmedAcked (p.largestAcked + 1)
      else h.lowestNotConfirmedAcked
    callbacks := h.callbacks ++ (handled p).map FrameCallback.onAcked }

/-- The second loop of `detectAndRemoveAckedPackets`, for one packet. -/
def settleAcked (encLevel : EncryptionLevel) (h : SentPacketHandler) (p : Packet) :
    Except Failure SentPacketHandler :=
  (confirmAcked encLevel h p).onHistory encLevel (·.remove p.packetNumber)

def detectAndRemoveAckedPackets (h : SentPacketHandler) (ack : AckFrame)
    (encLevel : EncryptionLevel) : Except Failure (SentPacketHandler × List Packet) :=
  match h.space encLevel, ack.lowestAcked, ack.largestAcked with
  | some s, some lowestAcked, some largestAcked =>
    (collectAcked ack encLevel lowestAcked largestAcked s.history.entries ack.ackRanges.reverse
      s.history []).bind fun (history, acked) =>
        (acked.foldlM (settleAcked encLevel)
          (h.setSpace { s with history := history } encLevel)).map
          (·, acked)
  | _, _, _ => .error .nilDereference

/-- The client learns that the server has validated its address. -/
def completeAddressValidation (h : SentPacketHandler) (encLevel : EncryptionLevel) (rcvTime : Int)
    (rtt : RTT) : SentPacketHandler :=
  if h.perspective = .client ∧ h.peerCompletedAddressValidation = false ∧
      (encLevel = .handshake ∨ encLevel = .oneRTT) then
    { h with peerCompletedAddressValidation := true }.setLossDetectionTimer rcvTime rtt
  else h

/-- Raise the largest acknowledged number of a space. -/
def raiseLargestAcked (h : SentPacketHandler) (encLevel : EncryptionLevel) (pn : Int) :
    SentPacketHandler :=
  match h.space encLevel with
  | none => h
  | some s => h.setSpace { s with largestAcked := max s.largestAcked pn } encLevel

/-- The losses an ACK reveals. -/
def detectLost (h : SentPacketHandler) (encLevel : EncryptionLevel) (rcvTime : Int) (rtt : RTT) :
    Except Failure SentPacketHandler :=
  (h.detectLostPackets rcvTime encLevel rtt).bind fun h =>
    if encLevel = .oneRTT then h.detectLostPathProbes rcvTime else .ok h

/-- The end of `ReceivedAck`. -/
def finishAck (h : SentPacketHandler) (rcvTime : Int) (rtt : RTT) : SentPacketHandler :=
  { h with
    ptoCount := if h.peerCompletedAddressValidation then 0 else h.ptoCount
    numProbesToSend := 0 }.setLossDetectionTimer rcvTime rtt

/-- `ReceivedAck` for a frame that acknowledges packets. -/
def processAcked (h : SentPacketHandler) (acked : List Packet) (largestAcked : Int)
    (encLevel : EncryptionLevel) (rcvTime : Int) (rtt : RTT) :
    Except Failure (SentPacketHandler × Bool) :=
  (((h.raiseLargestAcked encLevel largestAcked).detectLost encLevel rcvTime rtt).bind fun h =>
    acked.foldlM removeFromBytesInFlight h).map fun h =>
      (h.finishAck rcvTime rtt, acked.any fun p => p.encryptionLevel == some EncryptionLevel.oneRTT)

/-- `ReceivedAck`; the second component says whether a 1-RTT packet was
acknowledged. -/
def receivedAck (h : SentPacketHandler) (ack : AckFrame)
    (encLevel : EncryptionLevel) (rcvTime : Int)
    (rtt : RTT) : Except Failure (SentPacketHandler × Bool) :=
  match h.space encLevel, ack.largestAcked with
  | some s, some largestAcked =>
    if s.largestSent < largestAcked then .error .ackForUnsent
    else
      ((h.completeAddressValidation encLevel rcvTime rtt).detectAndRemoveAckedPackets ack
        encLevel).bind fun (h, acked) =>
          if acked = [] then .ok (h, false)
          else h.processAcked acked largestAcked encLevel rcvTime rtt
  | _, _ => .error .nilDereference

/-! ## Dropping keys, Retry and migration -/

/-- The probe state, reset when keys are dropped. -/
def resetPTO (h : SentPacketHandler) : SentPacketHandler :=
  { h with ptoCount := 0, numProbesToSend := 0, ptoMode := .sendNone }

/-- `Remove` with its error ignored, in the application data space. -/
def removeQuietly (h : SentPacketHandler) (pn : Int) : Except Failure SentPacketHandler :=
  match h.appDataPackets.history.remove pn with
  | .ok history => .ok { h with appDataPackets := { h.appDataPackets with history := history } }
  | .error (.notFound _) => .ok h
  | .error e => .error e

/-- The loop of `DropPackets` for rejected 0-RTT: it ends at the first 1-RTT
packet. -/
def drop0RTTLoop : List Packet → SentPacketHandler → Except Failure SentPacketHandler
  | [], h => .ok h
  | p :: rest, h =>
    if p.encryptionLevel ≠ some .zeroRTT ∧ p.skippedPacket = false then .ok h
    else ((h.removeFromBytesInFlight p).bind (·.removeQuietly p.packetNumber)).bind
      (drop0RTTLoop rest)

/-- The part of `DropPackets` that depends on the level; `none` if the space was
already dropped. -/
def dropSpace (h : SentPacketHandler) : EncryptionLevel → Except Failure (Option SentPacketHandler)
  | .initial =>
    match h.initialPackets with
    | none => .ok none
    | some s => (s.history.entries.foldlM removeFromBytesInFlight h).map fun h =>
      some { h with initialPackets := none }
  | .handshake =>
    match h.handshakePackets with
    | none => .ok none
    | some s => (s.history.entries.foldlM removeFromBytesInFlight h).map fun h =>
      some { h with handshakePackets := none, handshakeConfirmed := true }
  | .zeroRTT => (drop0RTTLoop h.appDataPackets.history.entries h).map some
  | .oneRTT => .error (.cannotDropKeys .oneRTT)

/-- Dropping the Handshake keys tells the client that its address is validated. -/
def validateOnDrop (h : SentPacketHandler) (encLevel : EncryptionLevel) : SentPacketHandler :=
  if h.perspective = .client ∧ encLevel = .handshake then
    { h with peerCompletedAddressValidation := true }
  else h

def dropPackets (h : SentPacketHandler) (encLevel : EncryptionLevel) (now : Int) (rtt : RTT) :
    Except Failure SentPacketHandler :=
  ((h.validateOnDrop encLevel).dropSpace encLevel).map fun
    | none => h.validateOnDrop encLevel
    | some h => h.resetPTO.setLossDetectionTimer now rtt

/-- `ResetForRetry`: the frames of one packet. -/
def queueForRetry (h : SentPacketHandler) (p : Packet) : Except Failure SentPacketHandler :=
  if p.declaredLost || p.skippedPacket then .ok h else h.queueFramesForRetransmission p

/-- `ResetForRetry`: the two spaces start afresh at the next packet number. -/
def renewSpaces (h : SentPacketHandler) (s : PacketNumberSpace) (rnd : Nat) : SentPacketHandler :=
  { h with
    initialPackets := some (.new s.pns.peek false rnd)
    appDataPackets := .new h.appDataPackets.pns.peek true rnd
    alarm := ⟨0, none, none⟩
    ptoCount := 0 }

def resetForRetry (h : SentPacketHandler) (rnd : Nat) : Except Failure SentPacketHandler :=
  match h.initialPackets with
  | none => .error .nilDereference
  | some s =>
    ((s.history.entries ++ h.appDataPackets.history.entries).foldlM queueForRetry
      { h with bytesInFlight := 0 }).map (·.renewSpaces s rnd)

/-- `MigratedPath`: one packet. -/
def loseMigrated (h : SentPacketHandler) (p : Packet) : Except Failure SentPacketHandler :=
  (h.onHistory .oneRTT (·.declareLost p.packetNumber)).bind (·.loseRegular p)

/-- `RemovePathProbe` on the array behind the slice: the elements after the one
removed move down and the last one stays where it was. -/
def removeFromArray (array : List Packet) (len : Nat) (pn : Int) : List Packet × Nat :=
  match (array.take len).findIdx? (·.packetNumber = pn) with
  | none => (array, len)
  | some idx =>
    ((array.take len).eraseIdx idx ++ (array.take len).getLast?.toList ++ array.drop len, len - 1)

/-- `MigratedPath`: the loop over the path probes.  It ranges over the slice as it
was, whose array `RemovePathProbe` shifts under it. -/
def removePathProbes : Nat → Nat → List Packet × Nat → List Packet × Nat
  | 0, _, (array, len) => (array, len)
  | rounds + 1, i, (array, len) =>
    match array[i]? with
    | none => (array, len)
    | some p => removePathProbes rounds (i + 1) (removeFromArray array len p.packetNumber)

/-- The path probes that remain after `MigratedPath`. -/
def probesAfterMigration (probes : List Packet) : List Packet :=
  let (array, len) := removePathProbes probes.length 0 (probes, probes.length)
  array.take len

/-- `MigratedPath`: the path probes. -/
def clearPathProbes (h : SentPacketHandler) : SentPacketHandler :=
  { h with appDataPackets := { h.appDataPackets with
      history := { h.appDataPackets.history with
        pathProbePackets := probesAfterMigration h.appDataPackets.history.pathProbePackets } } }

def migratedPath (h : SentPacketHandler) (now : Int) (rtt : RTT) :
    Except Failure SentPacketHandler :=
  (h.appDataPackets.history.entries.foldlM loseMigrated h).map fun h =>
    h.clearPathProbes.setLossDetectionTimer now rtt

/-! ## The loss detection timer fires -/

def countPTO (h : SentPacketHandler) (probes : Int) : SentPacketHandler :=
  { h with ptoCount := (h.ptoCount + 1) % 2 ^ 32, numProbesToSend := h.numProbesToSend + probes }

/-- The PTO of a client that may not be able to make progress otherwise. -/
def probeAddress (h : SentPacketHandler) : Except Failure SentPacketHandler :=
  if h.initialPackets.isSome then .ok { h with ptoMode := .sendPTOInitial }
  else if h.handshakePackets.isSome then .ok { h with ptoMode := .sendPTOHandshake }
  else .error .ptoWithoutSpace

/-- The probe mode of a level.  In the application data space a packet number is
skipped to elicit an immediate ACK. -/
def setPTOMode (h : SentPacketHandler) (rnd : Nat) :
    EncryptionLevel → Except Failure SentPacketHandler
  | .initial => .ok { h with ptoMode := .sendPTOInitial }
  | .handshake => .ok { h with ptoMode := .sendPTOHandshake }
  | .zeroRTT => .error (.unexpectedPTO .zeroRTT)
  | .oneRTT =>
    (h.popPacketNumber .oneRTT rnd).bind fun (h, pn) =>
      (h.onHistory .oneRTT (·.skippedPacket pn)).map fun h => { h with ptoMode := .sendPTOAppData }

/-- The PTO of a packet number space. -/
def firePTO (h : SentPacketHandler) (encLevel : EncryptionLevel) (rnd : Nat) :
    Except Failure SentPacketHandler :=
  match h.space encLevel with
  | none => .error .nilDereference
  | some s =>
    if !s.history.hasOutstandingPackets && !s.history.hasOutstandingPathProbes &&
        !h.peerCompletedAddressValidation then .ok h
    else (h.countPTO 2).setPTOMode rnd encLevel

/-- `OnLossDetectionTimeout`, after the path probes. -/
def lossOrPTO (h : SentPacketHandler) (now : Int) (rtt : RTT) (rnd : Nat) :
    Except Failure SentPacketHandler :=
  let (lossTime, lossLevel) := h.getLossTimeAndSpace
  if !isZeroTime lossTime then h.detectLostPackets now lossLevel rtt
  else if h.bytesInFlight = 0 ∧ h.peerCompletedAddressValidation = false then
    (h.countPTO 1).probeAddress
  else
    match h.getPTOTimeAndSpace now rtt with
    | (ptoTime, some encLevel) => if isZeroTime ptoTime then .ok h else h.firePTO encLevel rnd
    | (_, none) => .ok h

/-- `OnLossDetectionTimeout`; the timer is set again when it returns. -/
def onLossDetectionTimeout (h : SentPacketHandler) (now : Int) (rtt : RTT) (rnd : Nat) :
    Except Failure SentPacketHandler :=
  ((if h.handshakeConfirmed then h.detectLostPathProbes now else .ok h).bind
    (·.lossOrPTO now rtt rnd)).map (·.setLossDetectionTimer now rtt)

/-! ## Receiving -/

def receivedBytes (h : SentPacketHandler) (n : Nat) (t : Int) (rtt : RTT) : SentPacketHandler :=
  let h' := { h with bytesReceived := h.bytesReceived + n }
  if h.isAmplificationLimited && !h'.isAmplificationLimited then h'.setLossDetectionTimer t rtt
  else h'

def receivedPacket (h : SentPacketHandler) (l : EncryptionLevel) (t : Int) (rtt : RTT) :
    SentPacketHandler :=
  if h.perspective = .server ∧ l = .handshake ∧ h.peerAddressValidated = false then
    { h with peerAddressValidated := true }.setLossDetectionTimer t rtt
  else h

/-! ## The handler as a machine -/

/-- A call to the handler, with what it reads from outside. -/
inductive Call
  | popPacketNumber (encLevel : EncryptionLevel) (rnd : Nat)
  | sentPacket (a : Sent) (rtt : RTT)
  | receivedAck (ack : AckFrame) (encLevel : EncryptionLevel) (rcvTime : Int) (rtt : RTT)
  | onLossDetectionTimeout (now : Int) (rtt : RTT) (rnd : Nat)
  | queueProbePacket (encLevel : EncryptionLevel)
  | dropPackets (encLevel : EncryptionLevel) (now : Int) (rtt : RTT)
  | resetForRetry (rnd : Nat)
  | migratedPath (now : Int) (rtt : RTT)
  | receivedBytes (n : Nat) (t : Int) (rtt : RTT)
  | receivedPacket (l : EncryptionLevel) (t : Int) (rtt : RTT)
  deriving DecidableEq, Repr

/-- The handler after a call that neither panics nor returns an error. -/
def call (h : SentPacketHandler) : Call → Except Failure SentPacketHandler
  | .popPacketNumber encLevel rnd => (h.popPacketNumber encLevel rnd).map (·.1)
  | .sentPacket a rtt => h.sentPacket a rtt
  | .receivedAck ack encLevel rcvTime rtt => (h.receivedAck ack encLevel rcvTime rtt).map (·.1)
  | .onLossDetectionTimeout now rtt rnd => h.onLossDetectionTimeout now rtt rnd
  | .queueProbePacket encLevel => (h.queueProbePacket encLevel).map (·.1)
  | .dropPackets encLevel now rtt => h.dropPackets encLevel now rtt
  | .resetForRetry rnd => h.resetForRetry rnd
  | .migratedPath now rtt => h.migratedPath now rtt
  | .receivedBytes n t rtt => .ok (h.receivedBytes n t rtt)
  | .receivedPacket l t rtt => .ok (h.receivedPacket l t rtt)

def step (h : SentPacketHandler) (c : Call) : Option SentPacketHandler := (h.call c).toOption

/-- The handler under calls in any order, as long as none of them fails. -/
def machine (initialPN : Nat) (clientAddressValidated : Bool) (pers : Perspective) (rnd : Nat) :
    Machine SentPacketHandler Call :=
  .ofStep (new initialPN clientAddressValidated pers rnd) step

/-- `ResetForRetry` does not look at the Handshake space.  The connection accepts a Retry only
before the first packet of the server (`handleRetryPacket`), hence before it has Handshake keys
and sends a Handshake packet. -/
def RetriesEarly (h : SentPacketHandler) : Call → Prop
  | .resetForRetry _ => ∀ s ∈ h.handshakePackets, s.history.packets = []
  | _ => True

instance (h : SentPacketHandler) : (c : Call) → Decidable (RetriesEarly h c)
  | .resetForRetry _ =>
    inferInstanceAs (Decidable (∀ s ∈ h.handshakePackets, s.history.packets = []))
  | .popPacketNumber .. | .sentPacket .. | .receivedAck .. | .onLossDetectionTimeout ..
  | .queueProbePacket .. | .dropPackets .. | .migratedPath .. | .receivedBytes ..
  | .receivedPacket .. => .isTrue trivial

end SentPacketHandler

end UQuic.AckHandler
