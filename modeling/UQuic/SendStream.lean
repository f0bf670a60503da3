/-
# `UQuic.SendStream` — the sending half of a stream

Data on its way out passes through these places, each of which gives it to the next:

    dataForWriting         what the `Write` in progress has not handed over yet
    nextFrame              a frame that a short rest was copied to
    frames in flight       popped, and neither acknowledged nor lost
    retransmissionQueue    frames that were lost

A frame that does not fit a packet is split: a lost frame in place, the buffered one by
moving its end to a new buffer.  `Write` is a loop that sleeps on a channel between its
rounds; `popStreamFrame` and the acknowledgements come from the connection.  Frames are
values here, so the pool of frames and the swapping of their buffers are not modelled, but
a frame of the pool holds `MaxPacketBufferSize` bytes, and asking for more is a panic.
Deadlines are left out.  A number of more than 62 bits, on which the source panics, counts
as eight bytes.

The calls to a stream (`WriteEnd.call`) also keep what has happened so far: what was written,
what was popped, and which frames are in flight.
-/
import UQuic.Framer
import UQuic.FlowControl

namespace UQuic

open FlowControl (StreamFlowController ConnectionFlowController)
open Wire (StreamFrame)

namespace Wire.StreamFrame

/-- The header as `MaxDataLen` counts it, with one byte for the length. -/
def headerLen (f : StreamFrame) : Nat :=
  1 + QuicVarint.size f.streamID + (if f.offset ≠ 0 then QuicVarint.size f.offset else 0) +
    (if f.dataLenPresent then 1 else 0)

def maxDataLen (f : StreamFrame) (maxSize : Int) : Int :=
  if maxSize < f.headerLen then 0
  else
    let maxDataLen := maxSize - f.headerLen
    if f.dataLenPresent ∧ QuicVarint.size maxDataLen.toNat ≠ 1 then maxDataLen - 1 else maxDataLen

/-- What `MaybeSplitOffFrame` does. -/
inductive Split
  | fits
  | tooSmall
  /-- The frame split off, and what is left of the frame. -/
  | split (new rest : StreamFrame)
  deriving DecidableEq, Repr

/-- The first `n` bytes of a frame, and the rest. -/
def splitAt (f : StreamFrame) (n : Nat) : StreamFrame × StreamFrame :=
  ({ f with data := f.data.take n, fin := false },
    { f with offset := f.offset + n, data := f.data.drop n })

def maybeSplitOffFrame (f : StreamFrame) (maxSize : Int) : Split :=
  if (f.size : Int) ≤ maxSize then .fits
  else
    let n := f.maxDataLen maxSize
    if n = 0 then .tooSmall else .split (f.splitAt n.toNat).1 (f.splitAt n.toNat).2

end Wire.StreamFrame

namespace SendStream

/-- `finalError`: a `StreamError`, or the error that closed the connection. -/
inductive FinalError
  | stream (errorCode : Nat) (remote : Bool)
  | shutdown
  deriving DecidableEq, Repr

/-- `ResetStreamFrame`. -/
structure ResetStreamFrame where
  streamID : Nat
  finalSize : Nat
  errorCode : Nat
  deriving DecidableEq, Repr

/-- `sendStream`.  An empty `dataForWriting` is nil. -/
structure State where
  numOutstandingFrames : Int
  retransmissionQueue : List StreamFrame
  streamID : Nat
  writeOffset : Nat
  finalError : Option FinalError
  queuedResetStreamFrame : Option ResetStreamFrame
  finishedWriting : Bool
  finSent : Bool
  cancellationFlagged : Bool
  cancelled : Bool
  closedForShutdown : Bool
  completed : Bool
  dataForWriting : List UInt8
  nextFrame : Option StreamFrame
  writeChan : Bool
  flowController : StreamFlowController
  deriving DecidableEq, Repr

namespace State

def new (streamID : Nat) (flowController : StreamFlowController) : State :=
  ⟨0, [], streamID, 0, none, none, false, false, false, false, false, false, [], none, false,
    flowController⟩

def signalWrite (s : State) : State := { s with writeChan := true }

def isNewlyCompleted (s : State) : State × Bool :=
  if s.completed then (s, false)
  else if 0 < s.numOutstandingFrames ∨ s.retransmissionQueue ≠ [] ∨
      s.queuedResetStreamFrame ≠ none then (s, false)
  else if s.finSent then ({ s with completed := true }, true)
  else if s.cancelled && (s.cancellationFlagged || s.finishedWriting) then
    ({ s with completed := true }, true)
  else (s, false)

/-! ## Writing -/

def buffered (s : State) : List UInt8 := (s.nextFrame.map StreamFrame.data).getD []

def canBufferStreamFrame (s : State) : Bool :=
  s.buffered.length + s.dataForWriting.length ≤ maxPacketBufferSize

/-- All of `dataForWriting` is copied to `nextFrame`. -/
def buffer (s : State) : State :=
  { s with
    dataForWriting := []
    nextFrame := some (match s.nextFrame with
      -- the FIN of a frame from the pool is left over; it is set when the frame is popped
      | none => ⟨s.streamID, s.writeOffset, s.dataForWriting, false, true⟩
      | some f => { f with data := f.data ++ s.dataForWriting }) }

end State

/-- An error of `Write`. -/
inductive WriteError
  | final (err : FinalError)
  | other (message : String)
  deriving DecidableEq, Repr

/-- What `Write` returns. -/
structure WriteResult where
  n : Nat
  err : Option WriteError
  deriving DecidableEq, Repr

/-- Where a round of `Write` leaves it: with a result, or asleep.  `hasData` and `completed`
say whether `onHasStreamData` and `onStreamCompleted` are called. -/
structure Round where
  stream : State
  result : Option WriteResult
  hasData : Bool
  completed : Bool

namespace State

/-- `Write` returns the final error. -/
def failWrite (s : State) (n : Nat) (err : FinalError) : Round :=
  let s := if s.cancelled then { s with cancellationFlagged := true } else s
  ⟨s.isNewlyCompleted.1, some ⟨n, some (.final err)⟩, false, s.isNewlyCompleted.2⟩

/-- The loop of `write`, up to where it sleeps; `len` is the length of the data that was passed,
`notified` whether the sender knows about it. -/
def writeLoop (s : State) (len : Nat) (notified : Bool) : Round :=
  if s.canBufferStreamFrame ∧ s.dataForWriting ≠ [] then
    ⟨s.buffer, some ⟨len, none⟩, !notified, false⟩
  else
    let bytesWritten := len - s.dataForWriting.length
    match s.finalError with
    | none =>
      if s.dataForWriting = [] then ⟨s, some ⟨bytesWritten, none⟩, false, false⟩
      else ⟨s, none, !notified, false⟩
    | some err =>
      if bytesWritten = len then ⟨s, some ⟨bytesWritten, none⟩, false, false⟩
      else s.failWrite bytesWritten err

def write (s : State) (p : List UInt8) : Round :=
  match s.finalError with
  | some err => s.failWrite 0 err
  | none =>
    if s.finishedWriting then
      ⟨s, some ⟨0, some (.other s!"write on closed stream {s.streamID}")⟩, false, false⟩
    else if p = [] then ⟨s, some ⟨0, none⟩, false, false⟩
    else { s with dataForWriting := p }.writeLoop p.length false

/-! ## Popping frames -/

/-- `getDataForWriting`: the bytes taken. -/
def getDataForWriting (s : State) (maxBytes : Int) : Option (State × List UInt8) :=
  if (s.dataForWriting.length : Int) ≤ maxBytes then
    if maxPacketBufferSize < s.dataForWriting.length then none
    else some ({ s with dataForWriting := [] }.signalWrite, s.dataForWriting)
  else if (maxPacketBufferSize : Int) < maxBytes then none
  else
    let s' := { s with dataForWriting := s.dataForWriting.drop maxBytes.toNat }
    some (if s'.canBufferStreamFrame then s'.signalWrite else s',
      s.dataForWriting.take maxBytes.toNat)

/-- There is more to send: what `popNewStreamFrameWithoutBuffer` returns. -/
def hasMoreData (s : State) : Bool :=
  !s.dataForWriting.isEmpty || s.nextFrame.isSome || s.finishedWriting

/-- An empty frame at the write offset. -/
def emptyFrame (s : State) : StreamFrame := ⟨s.streamID, s.writeOffset, [], false, true⟩

/-- `popNewStreamFrame`: the frame, and whether there is more. -/
def popNewStreamFrame (s : State) (maxBytes sendWindow : Int) :
    Option (State × Option StreamFrame × Bool) :=
  match s.nextFrame with
  | some f =>
    let maxDataLen := min sendWindow (f.maxDataLen maxBytes)
    if maxDataLen = 0 then some (s, none, true)
    else if maxDataLen < f.data.length then
      let n := maxDataLen.toNat
      some ({ s with
          nextFrame := some ⟨s.streamID, s.writeOffset + n, f.data.drop n, false, true⟩ },
        some { f with data := f.data.take n }, true)
    else
      some ({ s with nextFrame := none }.signalWrite, some f, !s.dataForWriting.isEmpty)
  | none =>
    let maxDataLen := s.emptyFrame.maxDataLen maxBytes
    if maxDataLen = 0 then some (s, none, s.hasMoreData)
    else
      (s.getDataForWriting (min maxDataLen sendWindow)).map fun r =>
        (r.1, if r.2 = [] then none else some { s.emptyFrame with data := r.2 }, r.1.hasMoreData)

end State

/-- What `popStreamFrame` returns, with the state it leaves.  `fresh` marks a frame that is not
a retransmission; `blocked` is the limit in a STREAM_DATA_BLOCKED frame. -/
structure Popped where
  stream : State
  conn : ConnectionFlowController
  frame : Option StreamFrame
  fresh : Bool
  blocked : Option Nat
  hasMore : Bool
  deriving DecidableEq, Repr

namespace State

def popNothing (s : State) (conn : ConnectionFlowController) (hasMore : Bool) : Popped :=
  ⟨s, conn, none, false, none, hasMore⟩

/-- The credit for a new frame is spent, and the FIN is set if nothing is left. -/
def spend (s : State) (conn : ConnectionFlowController) (sendWindow : Int) (f : StreamFrame)
    (hasMore : Bool) : Popped :=
  let sent := s.flowController.addBytesSent conn f.data.length
  let blocked :=
    if (f.data.length : Int) = sendWindow then sent.1.isNewlyBlocked else (sent.1, false)
  let writeOffset := s.writeOffset + f.data.length
  let fin := s.finishedWriting && s.dataForWriting.isEmpty && s.nextFrame.isNone && !s.finSent
  ⟨{ s with writeOffset, flowController := blocked.1, finSent := s.finSent || fin }, sent.2,
    some { f with fin }, true, if blocked.2 then some writeOffset else none, hasMore⟩

/-- `popNewOrRetransmittedStreamFrame`, when there is nothing to retransmit. -/
def popNew (s : State) (conn : ConnectionFlowController) (maxBytes : Int) : Option Popped :=
  if s.dataForWriting = [] ∧ s.nextFrame = none then
    if s.finishedWriting && !s.finSent then
      some ⟨{ s with finSent := true }, conn, some { s.emptyFrame with fin := true },
        true, none, false⟩
    else some (s.popNothing conn false)
  else
    let sendWindow := s.flowController.sendWindowSize conn
    if sendWindow = 0 then some (s.popNothing conn true)
    else
      (s.popNewStreamFrame maxBytes sendWindow).map fun r =>
        match r.2.1 with
        | none => r.1.popNothing conn r.2.2
        | some f => r.1.spend conn sendWindow f r.2.2

/-- `maybeGetRetransmission`, for a queue `f :: rest`: the frame, and whether there are more. -/
def maybeGetRetransmission (s : State) (f : StreamFrame) (rest : List StreamFrame)
    (maxBytes : Int) : State × Option StreamFrame × Bool :=
  match f.maybeSplitOffFrame maxBytes with
  | .fits => ({ s with retransmissionQueue := rest }, some f, !rest.isEmpty)
  | .tooSmall => (s, none, true)
  | .split new left => ({ s with retransmissionQueue := left :: rest }, some new, true)

def popNewOrRetransmittedStreamFrame (s : State) (conn : ConnectionFlowController)
    (maxBytes : Int) : Option Popped :=
  if s.finalError ≠ none then some (s.popNothing conn false)
  else
    match s.retransmissionQueue with
    | [] => s.popNew conn maxBytes
    | f :: rest =>
      let r := s.maybeGetRetransmission f rest maxBytes
      if r.2.1.isSome || r.2.2 then some ⟨r.1, conn, r.2.1, false, none, true⟩
      else r.1.popNew conn maxBytes

/-- One more frame is outstanding, if one was popped. -/
def count (r : Popped) : Popped :=
  if r.frame.isSome then
    { r with stream := { r.stream with numOutstandingFrames := r.stream.numOutstandingFrames + 1 } }
  else r

def popStreamFrame (s : State) (conn : ConnectionFlowController) (maxBytes : Int) :
    Option Popped :=
  (s.popNewOrRetransmittedStreamFrame conn maxBytes).map count

/-! ## The other calls -/

/-- `Close`, with whether `onHasStreamData` and `onStreamCompleted` are called. -/
def close (s : State) : State × Bool × Bool :=
  if s.closedForShutdown || s.finishedWriting then (s, false, false)
  else
    let s := { s with
      finishedWriting := true
      cancellationFlagged := s.cancellationFlagged || s.cancelled }
    (s.isNewlyCompleted.1, !s.cancelled, s.isNewlyCompleted.2)

/-- `cancelWrite`, with whether `onStreamCompleted` is called. -/
def cancelWrite (s : State) (errorCode : Nat) (remote : Bool) : State × Bool :=
  if s.closedForShutdown then (s, false)
  else
    let s := { s with cancellationFlagged := s.cancellationFlagged || !remote }
    if s.cancelled then if remote then (s, false) else s.isNewlyCompleted
    else
      ({ s with
          cancelled := true
          finalError := some (.stream errorCode remote)
          numOutstandingFrames := 0
          retransmissionQueue := []
          queuedResetStreamFrame :=
            some ⟨s.streamID, s.writeOffset, errorCode⟩ }.signalWrite, false)

/-- `updateSendWindow`, with whether `onHasStreamData` is called. -/
def updateSendWindow (s : State) (limit : Int) : State × Bool :=
  let r := s.flowController.updateSendWindow limit
  ({ s with flowController := r.1 }, r.2 && (!s.dataForWriting.isEmpty || s.nextFrame.isSome))

def closeForShutdown (s : State) : State :=
  { s with
    closedForShutdown := true
    finalError := if s.finalError = none ∧ s.finishedWriting = false then some .shutdown
      else s.finalError }.signalWrite

def getControlFrame (s : State) : State × Option ResetStreamFrame :=
  match s.queuedResetStreamFrame with
  | none => (s, none)
  | some f =>
    ({ s with numOutstandingFrames := s.numOutstandingFrames + 1, queuedResetStreamFrame := none },
      some f)

/-- `OnAcked` of a STREAM frame, with whether `onStreamCompleted` is called; `none` is the
panic when nothing is outstanding. -/
def onAcked (s : State) : Option (State × Bool) :=
  if s.cancelled then some (s, false)
  else if s.numOutstandingFrames - 1 < 0 then none
  else some { s with numOutstandingFrames := s.numOutstandingFrames - 1 }.isNewlyCompleted

/-- `OnLost` of a STREAM frame, with whether `onHasStreamData` is called. -/
def onLost (s : State) (f : StreamFrame) : Option (State × Bool) :=
  if s.cancelled then some (s, false)
  else if s.numOutstandingFrames - 1 < 0 then none
  else
    some ({ s with
      retransmissionQueue := s.retransmissionQueue ++ [{ f with dataLenPresent := true }]
      numOutstandingFrames := s.numOutstandingFrames - 1 }, true)

/-- `OnAcked` of a RESET_STREAM frame. -/
def onResetAcked (s : State) : Option (State × Bool) :=
  if s.numOutstandingFrames - 1 < 0 then none
  else some { s with numOutstandingFrames := s.numOutstandingFrames - 1 }.isNewlyCompleted

/-- `OnLost` of a RESET_STREAM frame. -/
def onResetLost (s : State) (f : ResetStreamFrame) : State :=
  { s with
    queuedResetStreamFrame := some f
    numOutstandingFrames := s.numOutstandingFrames - 1 }

end State

end SendStream

/-! ## The calls -/

open SendStream (State Round WriteResult ResetStreamFrame Popped)

/-- A frame that was popped, whether it is new, and whether `Close` had been called. -/
structure SentFrame where
  frame : StreamFrame
  fresh : Bool
  closed : Bool
  deriving DecidableEq, Repr

/-- A send stream and the calls to it.

`writing` is the length of the data of a `Write` that sleeps, `inFlight` the frames and `resets`
the RESET_STREAM frames that were popped and not settled.  `written`, `acked`, `sent` and
`results` log the data `Write` accepted, the frames acknowledged, every frame popped, and what
`Write` returned. -/
structure WriteEnd where
  stream : State
  writing : Option Nat
  inFlight : List StreamFrame
  resets : List SendStream.ResetStreamFrame
  written : List UInt8
  acked : List StreamFrame
  sent : List SentFrame
  results : List WriteResult

namespace WriteEnd

def new (streamID : Nat) (flowController : StreamFlowController) : WriteEnd :=
  ⟨.new streamID flowController, none, [], [], [], [], [], []⟩

/-- A call, or a step of one; a settled frame is given by its position. -/
inductive Call
  | write (p : List UInt8)
  | wake
  | close
  | popStreamFrame (maxBytes : Int)
  | onAcked (i : Nat)
  | onLost (i : Nat)
  | updateSendWindow (limit : Nat)
  | cancelWrite (errorCode : Nat) (remote : Bool)
  | closeForShutdown
  | getControlFrame
  | onResetAcked (i : Nat)
  | onResetLost (i : Nat)
  deriving DecidableEq, Repr

/-- What a call leaves, and whether `onHasStreamData` and `onStreamCompleted` are called once it
has released the stream. -/
structure Called where
  sender : WriteEnd
  conn : ConnectionFlowController
  hasData : Bool
  completed : Bool

/-- The part of `p` that `Write` takes. -/
def accepted (e : WriteEnd) (p : List UInt8) : List UInt8 :=
  if e.stream.finalError = none ∧ e.stream.finishedWriting = false then p else []

/-- `Write` returns or goes to sleep. -/
def settle (e : WriteEnd) (conn : ConnectionFlowController) (len : Nat) (r : Round) : Called :=
  ⟨{ e with
      stream := r.stream
      writing := if r.result.isSome then none else some len
      results := e.results ++ r.result.toList }, conn, r.hasData, r.completed⟩

def popped (e : WriteEnd) (r : Popped) : WriteEnd :=
  { e with
    stream := r.stream
    inFlight := e.inFlight ++ r.frame.toList
    sent := e.sent ++ r.frame.toList.map fun f => ⟨f, r.fresh, e.stream.finishedWriting⟩ }

def call (e : WriteEnd) (conn : ConnectionFlowController) : Call → Option Called
  | .write p =>
    -- another `Write` waits for its turn
    if e.writing.isSome then none
    else some ({ e with written := e.written ++ e.accepted p }.settle conn p.length
    (e.stream.write p))
  | .wake =>
    e.writing.bind fun len =>
      if e.stream.writeChan then
        some (e.settle conn len ({ e.stream with writeChan := false }.writeLoop len true))
      else none
  | .close =>
    let r := e.stream.close
    some ⟨{ e with stream := r.1 }, conn, r.2.1, r.2.2⟩
  | .popStreamFrame maxBytes =>
    (e.stream.popStreamFrame conn maxBytes).map fun r => ⟨e.popped r, r.conn, false, false⟩
  | .onAcked i =>
    e.inFlight[i]?.bind fun f => e.stream.onAcked.map fun r =>
      ⟨{ e with stream := r.1, inFlight := e.inFlight.eraseIdx i, acked := f :: e.acked }, conn,
        false, r.2⟩
  | .onLost i =>
    e.inFlight[i]?.bind fun f => (e.stream.onLost f).map fun r =>
      ⟨{ e with stream := r.1, inFlight := e.inFlight.eraseIdx i }, conn, r.2, false⟩
  | .updateSendWindow limit =>
    let r := e.stream.updateSendWindow limit
    some ⟨{ e with stream := r.1 }, conn, r.2, false⟩
  | .cancelWrite errorCode remote =>
    let r := e.stream.cancelWrite errorCode remote
    some ⟨{ e with stream := r.1 }, conn, false, r.2⟩
  | .closeForShutdown => some ⟨{ e with stream := e.stream.closeForShutdown }, conn, false, false⟩
  | .getControlFrame =>
    let r := e.stream.getControlFrame
    some ⟨{ e with stream := r.1, resets := e.resets ++ r.2.toList }, conn, false, false⟩
  | .onResetAcked i =>
    e.resets[i]?.bind fun _ => e.stream.onResetAcked.map fun r =>
      ⟨{ e with stream := r.1, resets := e.resets.eraseIdx i }, conn, false, r.2⟩
  | .onResetLost i =>
    e.resets[i]?.map fun f =>
      ⟨{ e with stream := e.stream.onResetLost f, resets := e.resets.eraseIdx i },
        conn, false, false⟩

end WriteEnd

end UQuic
