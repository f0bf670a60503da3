/-
# `UQuic.ReceiveStream` — the receiving end of a stream

`receive_stream.go`.  The run loop hands STREAM and RESET_STREAM frames in, the
application reads, and either side may give up.  Everything happens under the
stream's mutex except two things: a `Read` sleeps on `readChan`, and `CancelRead`
and `handleStreamFrame` return credit (`Abandon`) after they have unlocked.

    Read            ──▶ returned, or waiting ──wake──▶ returned, or waiting
    CancelRead      ──▶ done, or completed ──abandon──▶ reported
    StreamFrame     ──▶ done, or completed ──abandon──▶ reported

Deadlines are not modelled.  `none` for a step is one that is not possible now, or
a panic of the frame sorter.
-/
import UQuic.FlowControl
import UQuic.Framer
import UQuic.FrameSorter
import UQuic.Lib.Machine

namespace UQuic

open FlowControl (FloatOps Tuning StreamFlowController ConnectionFlowController)

/-- A STREAM frame as `parseStreamFrame` returns it, with its `PutBack`. -/
structure ParsedStreamFrame extends Wire.StreamFrame where
  putBack : Nat
  within : offset + data.length ≤ maxByteCount

/-- `ResetStreamFrame`; its numbers are variable-length integers. -/
structure ResetStreamFrame where
  errorCode : Nat
  finalSize : Nat
  within : finalSize ≤ maxByteCount

/-- `StreamError`, without the stream's ID. -/
structure Cancellation where
  errorCode : Nat
  remote : Bool
  deriving DecidableEq, Repr

/-- `receiveStream`.  `credited` logs the arguments of `AddBytesRead`. -/
structure ReceiveStream where
  frameQueue : FrameSorter
  finalOffset : Nat
  currentFrame : Option (List UInt8)
  currentFrameDone : Option Nat
  readPosInFrame : Nat
  currentFrameIsLast : Bool
  queuedStopSending : Bool
  queuedMaxStreamData : Bool
  errorRead : Bool
  completed : Bool
  cancelledRemotely : Bool
  cancelledLocally : Bool
  cancelErr : Option Cancellation
  closeForShutdownErr : Bool
  readChan : Bool
  flowController : StreamFlowController
  credited : List Nat

namespace ReceiveStream

def new (flowController : StreamFlowController) : ReceiveStream :=
  ⟨.new, maxByteCount, none, none, 0, false, false, false, false, false, false, false, none, false,
    false, flowController, []⟩

/-- `len(s.currentFrame)`. -/
def currentLen (s : ReceiveStream) : Nat := (s.currentFrame.getD []).length

def signalRead (s : ReceiveStream) : ReceiveStream := { s with readChan := true }

def isNewlyCompleted (s : ReceiveStream) : ReceiveStream × Bool :=
  if s.completed then (s, false)
  else if s.finalOffset = maxByteCount then (s, false)
  else if s.cancelledLocally then ({ s with completed := true }, true)
  else if s.errorRead then ({ s with completed := true }, true)
  else (s, false)

/-! ## `Read` -/

/-- What `Read` returns as its error. -/
inductive ReadError
  | eof
  | cancelled (e : Option Cancellation)
  | shutdown
  | bug
  deriving DecidableEq, Repr

/-- The variables of a `Read` in progress: `len(p)`, the bytes it has copied, and the
window updates that are due. -/
structure Reading where
  len : Nat
  buf : List UInt8
  due : StreamFlowController.Due
  deriving DecidableEq, Repr

/-- What `Read` returns. -/
structure ReadResult where
  data : List UInt8
  err : Option ReadError
  deriving DecidableEq, Repr

/-- How far a `Read` gets without sleeping. -/
inductive Outcome
  | returned (s : ReceiveStream) (conn : ConnectionFlowController) (due : StreamFlowController.Due)
      (r : ReadResult)
  | waiting (s : ReceiveStream) (conn : ConnectionFlowController) (r : Reading)
  | panicked

def dequeueNextFrame (s : ReceiveStream) : Except FrameSorter.Failure ReceiveStream :=
  let queue := { s.frameQueue with done := s.frameQueue.done ++ s.currentFrameDone.toList }
  queue.pop.map fun (queue, popped) =>
    { s with
      frameQueue := queue
      currentFrame := popped.data
      currentFrameDone := popped.doneCb
      currentFrameIsLast := s.finalOffset ≤ popped.offset + (popped.data.getD []).length
      readPosInFrame := 0 }

/-- What is left of the current frame, as far as it fits into the buffer. -/
def available (s : ReceiveStream) (r : Reading) : List UInt8 :=
  ((s.currentFrame.getD []).drop s.readPosInFrame).take (r.len - r.buf.length)

/-- `copy` into the buffer, and the report to the flow controller. -/
def copyData (F : FloatOps) (s : ReceiveStream) (conn : ConnectionFlowController) (r : Reading) :
    ReceiveStream × ConnectionFlowController × Reading :=
  let m := s.available r
  let s := { s with readPosInFrame := s.readPosInFrame + m.length }
  let r := { r with buf := r.buf ++ m }
  if s.cancelledRemotely then (s, conn, r)
  else
    let (fc, conn, due) := s.flowController.addBytesRead F conn m.length
    ({ s with
        flowController := fc
        queuedMaxStreamData := s.queuedMaxStreamData || due.stream
        credited := s.credited ++ [m.length] },
      conn, { r with due := ⟨r.due.stream || due.stream, r.due.conn || due.conn⟩ })

/-- Nobody has reset the stream: the flow controller hears of every byte. -/
theorem copyData_eq {s : ReceiveStream} (F : FloatOps) (conn : ConnectionFlowController)
    (r : Reading) (h : s.cancelledRemotely = false) :
    s.copyData F conn r =
      let u := s.flowController.addBytesRead F conn (s.available r).length
      ({ s with
          readPosInFrame := s.readPosInFrame + (s.available r).length
          flowController := u.1
          queuedMaxStreamData := s.queuedMaxStreamData || u.2.2.stream
          credited := s.credited ++ [(s.available r).length] },
        u.2.1,
        { r with
          buf := r.buf ++ s.available r
          due := ⟨r.due.stream || u.2.2.stream, r.due.conn || u.2.2.conn⟩ }) :=
  if_neg (by rw [h]; exact Bool.false_ne_true)

/-- `readImpl` after a round that copied data: the end of the stream, or another round. -/
def afterCopy (next : ReceiveStream → ConnectionFlowController → Reading → Outcome)
    (s : ReceiveStream) (conn : ConnectionFlowController) (r : Reading) : Outcome :=
  if s.currentLen ≤ s.readPosInFrame ∧ s.currentFrameIsLast = true then
    .returned { s with
      currentFrame := none
      frameQueue := { s.frameQueue with done := s.frameQueue.done ++ s.currentFrameDone.toList }
      errorRead := true } conn r.due ⟨r.buf, some .eof⟩
  else next s conn r

/-- `readImpl` from its inner loop on: give up, sleep, or copy. -/
def await (F : FloatOps) (next : ReceiveStream → ConnectionFlowController → Reading → Outcome)
    (s : ReceiveStream) (conn : ConnectionFlowController) (r : Reading) : Outcome :=
  if s.closeForShutdownErr then .returned s conn r.due ⟨r.buf, some .shutdown⟩
  else if s.cancelledRemotely ∨ s.cancelledLocally then
    .returned { s with errorRead := true } conn r.due ⟨[], some (.cancelled s.cancelErr)⟩
  else if s.currentFrame = none ∧ s.currentFrameIsLast = false then .waiting s conn r
  else if r.len < r.buf.length ∨ s.currentLen < s.readPosInFrame then
    .returned s conn r.due ⟨r.buf, some .bug⟩
  else
    let (s, conn, r) := s.copyData F conn r
    s.afterCopy next conn r

/-- The loop of `readImpl`.  Every round copies a byte or takes a frame from the queue. -/
def readLoop (F : FloatOps) :
    Nat → ReceiveStream → ConnectionFlowController → Reading → Outcome
  | 0, _, _, _ => .panicked
  | fuel + 1, s, conn, r =>
    if r.len ≤ r.buf.length then .returned s conn r.due ⟨r.buf, none⟩
    else
      match if s.currentFrame = none ∨ s.currentLen ≤ s.readPosInFrame then s.dequeueNextFrame
        else .ok s with
      | .error _ => .panicked
      | .ok s =>
        if s.currentFrame = none ∧ r.buf ≠ [] then
          .returned s conn r.due
            ⟨r.buf, if s.closeForShutdownErr then some .shutdown else none⟩
        else s.await F (readLoop F fuel) conn r

/-- Rounds enough for every loop. -/
def rounds (s : ReceiveStream) (r : Reading) : Nat := r.len + s.frameQueue.queue.keys.length + 2

def readImpl (F : FloatOps) (s : ReceiveStream) (conn : ConnectionFlowController) (len : Nat) :
    Outcome :=
  if s.currentFrameIsLast ∧ s.currentFrame = none then
    .returned { s with errorRead := true } conn ⟨false, false⟩ ⟨[], some .eof⟩
  else if s.cancelledRemotely ∨ s.cancelledLocally then
    .returned { s with errorRead := true } conn ⟨false, false⟩ ⟨[], some (.cancelled s.cancelErr)⟩
  else if s.closeForShutdownErr then .returned s conn ⟨false, false⟩ ⟨[], some .shutdown⟩
  else
    let r : Reading := ⟨len, [], ⟨false, false⟩⟩
    readLoop F (s.rounds r) s conn r

/-- `readImpl` after it received from `readChan`. -/
def wake (F : FloatOps) (s : ReceiveStream) (conn : ConnectionFlowController) (r : Reading) :
    Outcome :=
  let s := { s with readChan := false }
  match if s.currentFrame = none then s.dequeueNextFrame else .ok s with
  | .error _ => .panicked
  | .ok s => s.await F (readLoop F (s.rounds r)) conn r

/-! ## Frames and cancellation -/

/-- `handleStreamFrameImpl`: with the error of the flow controller, or that of the sorter. -/
def handleStreamFrameImpl (s : ReceiveStream) (conn : ConnectionFlowController)
    (frame : ParsedStreamFrame) :
    Except FrameSorter.Failure (ReceiveStream × ConnectionFlowController × Option TransportError) :=
  let maxOffset := frame.offset + frame.data.length
  let u := s.flowController.updateHighestReceived conn maxOffset frame.fin
  let s := { s with flowController := u.stream }
  if u.err.isSome then .ok (s, u.conn, u.err)
  else
    let s := if frame.fin then { s with finalOffset := maxOffset } else s
    if s.cancelledLocally then .ok (s, u.conn, none)
    else (s.frameQueue.push frame.data frame.offset (some frame.putBack)).map fun queue =>
      ({ s with frameQueue := queue }.signalRead, u.conn, none)

/-- The final offset after a frame. -/
def finalOffsetAfter (s : ReceiveStream) (frame : ParsedStreamFrame) : Nat :=
  if frame.fin then frame.offset + frame.data.length else s.finalOffset

/-- Everything `handleStreamFrameImpl` can do, unless the sorter fails. -/
theorem handleStreamFrameImpl_cases {s s' : ReceiveStream} {conn conn' : ConnectionFlowController}
    {frame : ParsedStreamFrame} {err : Option TransportError}
    (h : s.handleStreamFrameImpl conn frame = .ok (s', conn', err)) :
    ∃ u, u = s.flowController.updateHighestReceived conn
        (frame.offset + frame.data.length : Nat) frame.fin ∧ conn' = u.conn ∧ err = u.err ∧
      ((u.err ≠ none ∧ s' = { s with flowController := u.stream }) ∨
        (u.err = none ∧ s.cancelledLocally = true ∧ s' = { s with
          flowController := u.stream
          finalOffset := s.finalOffsetAfter frame }) ∨
        (u.err = none ∧ s.cancelledLocally = false ∧ ∃ queue,
          s.frameQueue.push frame.data frame.offset (some frame.putBack) = .ok queue ∧
          s' = { s with
            flowController := u.stream
            finalOffset := s.finalOffsetAfter frame
            frameQueue := queue
            readChan := true })) := by
  refine ⟨_, rfl, ?_⟩
  simp only [handleStreamFrameImpl] at h
  generalize s.flowController.updateHighestReceived conn
    (frame.offset + frame.data.length : Nat) frame.fin = u at h ⊢
  -- The two ways to write the final offset.
  have hs : (if frame.fin = true then { s with
      flowController := u.stream
      finalOffset := frame.offset + frame.data.length } else
        { s with flowController := u.stream }) =
      { s with flowController := u.stream, finalOffset := s.finalOffsetAfter frame } := by
    rw [finalOffsetAfter]
    split <;> rfl
  rw [hs] at h
  cases herr : u.err with
  | some e =>
    rw [herr, if_pos Option.isSome_some] at h
    cases h
    exact ⟨rfl, rfl, .inl ⟨Option.some_ne_none e, rfl⟩⟩
  | none =>
    rw [herr, if_neg (Bool.eq_false_iff.mp Option.isSome_none)] at h
    dsimp only at h
    by_cases hlocal : s.cancelledLocally = true
    · rw [if_pos hlocal] at h
      cases h
      exact ⟨rfl, rfl, .inr (.inl ⟨rfl, hlocal, rfl⟩)⟩
    · rw [if_neg hlocal] at h
      obtain ⟨queue, hpush, heq⟩ := Except.map_eq_ok_iff.mp h
      cases heq
      exact ⟨rfl, rfl, .inr (.inr ⟨rfl, Bool.eq_false_iff.mpr hlocal, queue, hpush, rfl⟩)⟩

def handleResetStreamFrameImpl (s : ReceiveStream) (conn : ConnectionFlowController)
    (frame : ResetStreamFrame) :
    ReceiveStream × ConnectionFlowController × Option TransportError :=
  if s.closeForShutdownErr then (s, conn, none)
  else
    let u := s.flowController.updateHighestReceived conn frame.finalSize true
    if u.err.isSome then ({ s with flowController := u.stream }, u.conn, u.err)
    else
      let s := { s with flowController := u.stream, finalOffset := frame.finalSize }
      if s.cancelledRemotely then (s, u.conn, none)
      else
        let (fc, conn) := s.flowController.abandon u.conn
        let s := { s with flowController := fc }
        if s.cancelledLocally then (s, conn, none)
        else ({ s with
          cancelledRemotely := true
          cancelErr := some ⟨frame.errorCode, true⟩ }.signalRead, conn, none)

/-- The error of a RESET_STREAM frame is that of the flow controller. -/
theorem handleResetStreamFrameImpl_err (s : ReceiveStream) (conn : ConnectionFlowController)
    (frame : ResetStreamFrame) : (s.handleResetStreamFrameImpl conn frame).2.2 = none ∨
      (s.handleResetStreamFrameImpl conn frame).2.2 =
        (s.flowController.updateHighestReceived conn frame.finalSize true).err := by
  simp only [handleResetStreamFrameImpl]
  split
  · exact .inl rfl
  · split
    · exact .inr rfl
    · split
      · exact .inl rfl
      · split <;> exact .inl rfl

def cancelReadImpl (s : ReceiveStream) (errorCode : Nat) : ReceiveStream :=
  if s.cancelledLocally then s
  else if s.closeForShutdownErr then s
  else
    let s := { s with cancelledLocally := true }
    if s.errorRead ∨ s.cancelledRemotely then s
    else { s with
      queuedStopSending := true
      cancelErr := some ⟨errorCode, false⟩ }.signalRead

def closeForShutdown (s : ReceiveStream) : ReceiveStream :=
  { s with closeForShutdownErr := true }.signalRead

/-- A frame that `getControlFrame` returns. -/
inductive ControlFrame
  | stopSending (errorCode : Option Nat)
  | maxStreamData (maximumStreamData : Int)
  deriving DecidableEq, Repr

def getControlFrame (F : FloatOps) (s : ReceiveStream) (conn : ConnectionFlowController)
    (t : Tuning) : ReceiveStream × ConnectionFlowController × Option ControlFrame :=
  if s.queuedStopSending then
    ({ s with queuedStopSending := false }, conn,
      some (.stopSending (s.cancelErr.map (·.errorCode))))
  else if s.queuedMaxStreamData then
    let (fc, conn, offset) := s.flowController.getWindowUpdate F conn t
    ({ s with queuedMaxStreamData := false, flowController := fc }, conn,
      some (.maxStreamData offset))
  else (s, conn, none)

end ReceiveStream

/-! ## The calls -/

open ReceiveStream (Reading ReadResult Outcome)

/-- A receive stream and the calls to it.

`reading` is a `Read` that sleeps, `abandoning` a call that has completed the stream
and not returned its credit yet, `reported` whether `onStreamCompleted` was called.
`results`, `errors` and `granted` log what `Read` returned, the transport errors of
the frames, and what `GetWindowUpdate` returned. -/
structure ReadEnd where
  stream : ReceiveStream
  reading : Option Reading
  abandoning : Bool
  reported : Bool
  results : List ReadResult
  errors : List TransportError
  granted : List Int

namespace ReadEnd

def new (flowController : StreamFlowController) : ReadEnd :=
  ⟨.new flowController, none, false, false, [], [], []⟩

/-- A call, or a step of one. -/
inductive Call
  | streamFrame (frame : ParsedStreamFrame)
  | resetStreamFrame (frame : ResetStreamFrame)
  | read (len : Nat)
  | wake
  | cancelRead (errorCode : Nat)
  | abandon
  | closeForShutdown
  | getControlFrame (t : Tuning)
  | getWindowUpdate (t : Tuning)

/-- The offset that a frame reports to the flow controller. -/
def Call.offset? : Call → Option Nat
  | .streamFrame frame => some (frame.offset + frame.data.length)
  | .resetStreamFrame frame => some frame.finalSize
  | _ => none

/-- The end of a call that returns credit itself: `onStreamCompleted` at once. -/
def report (e : ReadEnd) : ReadEnd :=
  let r := e.stream.isNewlyCompleted
  { e with stream := r.1, reported := e.reported || r.2 }

/-- The end of a call that has to `Abandon` the stream first. -/
def complete (e : ReadEnd) : ReadEnd :=
  let r := e.stream.isNewlyCompleted
  { e with stream := r.1, abandoning := e.abandoning || r.2 }

/-- `Read` returns or goes to sleep. -/
def settle (e : ReadEnd) : Outcome → Option (ReadEnd × ConnectionFlowController)
  | .returned s conn _ r =>
    some ({ e with stream := s, reading := none, results := e.results ++ [r] }.report, conn)
  | .waiting s conn r => some ({ e with stream := s, reading := some r }, conn)
  | .panicked => none

def call (F : FloatOps) (e : ReadEnd) (conn : ConnectionFlowController) :
    Call → Option (ReadEnd × ConnectionFlowController)
  | .streamFrame frame =>
    (e.stream.handleStreamFrameImpl conn frame).toOption.map fun (s, conn, err) =>
      ({ e with stream := s, errors := e.errors ++ err.toList }.complete, conn)
  | .resetStreamFrame frame =>
    let (s, conn, err) := e.stream.handleResetStreamFrameImpl conn frame
    some ({ e with stream := s, errors := e.errors ++ err.toList }.report, conn)
  | .read len => if e.reading.isSome then none else e.settle (e.stream.readImpl F conn len)
  | .wake =>
    e.reading.bind fun r =>
      if e.stream.readChan then e.settle (e.stream.wake F conn r) else none
  | .cancelRead errorCode =>
    some ({ e with stream := e.stream.cancelReadImpl errorCode }.complete, conn)
  | .abandon =>
    if e.abandoning then
      let (fc, conn) := e.stream.flowController.abandon conn
      some ({ e with
        stream := { e.stream with flowController := fc }
        abandoning := false
        reported := true }, conn)
    else none
  | .closeForShutdown => some ({ e with stream := e.stream.closeForShutdown }, conn)
  | .getControlFrame t =>
    let (s, conn, frame) := e.stream.getControlFrame F conn t
    let offsets := match frame with
      | some (.maxStreamData offset) => [offset]
      | _ => []
    some ({ e with stream := s, granted := e.granted ++ offsets }, conn)
  | .getWindowUpdate t =>
    let (fc, conn, offset) := e.stream.flowController.getWindowUpdate F conn t
    some ({ e with
      stream := { e.stream with flowController := fc }
      granted := e.granted ++ [offset] }, conn)

/-! ### Logs only grow -/

variable {F : FloatOps} {e e' : ReadEnd} {conn conn' : ConnectionFlowController}

theorem settle_errors {o : Outcome} (h : e.settle o = some (e', conn')) : e'.errors = e.errors := by
  cases o with
  | returned s conn due r | waiting s conn r => cases h; rfl
  | panicked => cases h

/-- **The errors of a call** are those of the flow controller, for the offset of a frame. -/
theorem call_errors {c : Call} (h : e.call F conn c = some (e', conn')) :
    ∃ errs, e'.errors = e.errors ++ errs ∧ ∀ err ∈ errs, ∃ offset ∈ c.offset?, ∃ final,
      (e.stream.flowController.updateHighestReceived conn offset final).err = some err := by
  have hno : e'.errors = e.errors → ∃ errs, e'.errors = e.errors ++ errs ∧ ∀ err ∈ errs,
      ∃ offset ∈ c.offset?, ∃ final,
        (e.stream.flowController.updateHighestReceived conn offset final).err = some err :=
    fun heq => ⟨[], heq.trans (List.append_nil _).symm, fun _ h => absurd h List.not_mem_nil⟩
  cases c with
  | streamFrame frame =>
    obtain ⟨⟨s, conn'', err⟩, hf, heq⟩ := Option.map_eq_some_iff.mp h
    cases heq
    obtain ⟨u, rfl, -, rfl, -⟩ :=
      ReceiveStream.handleStreamFrameImpl_cases (Except.toOption_eq_some_iff.mp hf)
    exact ⟨_, rfl, fun err herr => ⟨_, rfl, frame.fin, Option.mem_toList.mp herr⟩⟩
  | resetStreamFrame frame =>
    have herror := e.stream.handleResetStreamFrameImpl_err conn frame
    simp only [call] at h
    rcases hreset : e.stream.handleResetStreamFrameImpl conn frame with ⟨s, conn'', err⟩
    rw [hreset] at h herror
    cases h
    refine ⟨_, rfl, fun err' hmem => ⟨_, rfl, true, ?_⟩⟩
    have hmem : err = some err' := Option.mem_toList.mp hmem
    rcases herror with hno | hsame
    · cases hno.symm.trans hmem
    · exact hsame.symm.trans hmem
  | read len =>
    simp only [call] at h
    split_ifs at h
    exact hno (settle_errors h)
  | wake =>
    obtain ⟨r, -, h⟩ := Option.bind_eq_some_iff.mp h
    split_ifs at h
    exact hno (settle_errors h)
  | abandon =>
    simp only [call] at h
    split_ifs at h
    cases h
    exact hno rfl
  | cancelRead code | closeForShutdown | getControlFrame t | getWindowUpdate t =>
    cases h
    exact hno rfl

end ReadEnd

end UQuic
