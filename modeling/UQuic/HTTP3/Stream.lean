/-
# `UQuic.HTTP3.Stream` — the model of HTTP/3 request streams and bodies

`http3/frames.go`, `http_stream.go` and `body.go`, as far as they read.  Three layers
pull on one QUIC stream:

    frameParser.ParseNext   type and length; it skips the payload of unknown frames and
                            leaves that of DATA and HEADERS frames to its caller
    stream.Read             the payload of DATA frames, one frame at a time
    body.Read               the same, checked against the Content-Length

Each may return data and an error at the same time.  The QUIC stream is a `ByteStream`:
it splits its bytes into reads as it likes.  When the connection is closed or reading is
canceled, the rest of the bytes is gone and reads return an error.

The QPACK decoder and the checks of the decoded trailers are known by whether they
succeed.  `trailerCalls` records the payloads that `parseTrailer` was called on.

`Body.length_data_le` bounds what the reads of a body return by its Content-Length.
-/
import UQuic.Protocol
import UQuic.QuicVarintRead

namespace UQuic.HTTP3

/-- The errors of QUIC streams that are told apart: `quic.StreamError`, `quic.ApplicationError`
and others. -/
inductive QuicError
  | stream (remote : Bool) (errorCode : Nat)
  | application (remote : Bool) (errorCode : Nat) (errorMessage : String)
  | other (message : String)
  deriving DecidableEq, Repr

/-- `Error`. -/
structure Error where
  remote : Bool
  errorCode : Nat
  errorMessage : String
  deriving DecidableEq, Repr

def errCodeFrameUnexpected : Nat := 0x105

def errCodeMessageError : Nat := 0x10e

/-- The QUIC stream under a request stream. -/
abbrev QuicStream := ByteStream QuicError

/-- The errors that `Read` returns. -/
inductive StreamError
  /-- Of the QUIC stream. -/
  | io (e : ReadError QuicError)
  /-- Of the QUIC stream, as an HTTP/3 error. -/
  | http3 (e : Error)
  /-- `http3: reserved frame type: %d`. -/
  | reservedFrameType (t : Nat)
  /-- `unexpected size for SETTINGS frame: %d`. -/
  | settingsSize (l : Nat)
  /-- `duplicate setting: %d`. -/
  | duplicateSetting (id : Nat)
  /-- `invalid value for SETTINGS_ENABLE_CONNECT_PROTOCOL: %d`. -/
  | invalidExtendedConnect (val : Nat)
  /-- `invalid value for SETTINGS_H3_DATAGRAM: %d`. -/
  | invalidDatagram (val : Nat)
  /-- `GOAWAY frame: inconsistent length`. -/
  | goAwayLength
  /-- `DATA frame received after trailers`. -/
  | dataAfterTrailers
  /-- `additional HEADERS frame received after trailers`. -/
  | additionalHeaders
  /-- `peer sent an unexpected frame`. -/
  | unexpectedFrame
  /-- `HEADERS frame too large: %d bytes (max: %d)`. -/
  | headersTooLarge (l max : Nat)
  /-- The trailers cannot be decoded. -/
  | trailers
  /-- `errTooMuchData`. -/
  | tooMuchData
  deriving DecidableEq, Repr

/-! ## Frames -/

/-- `settingsFrame`; `other` in the order of the settings. -/
structure SettingsFrame where
  datagram : Bool
  extendedConnect : Bool
  other : List (Nat × Nat)
  deriving DecidableEq, Repr

/-- What `ParseNext` returns. -/
inductive Frame
  | data (length : Nat)
  | headers (length : Nat)
  | settings (f : SettingsFrame)
  | goAway (streamID : Nat)
  deriving DecidableEq, Repr

/-- The cases of the switch on the frame type. -/
inductive FrameKind
  | data
  | headers
  | settings
  | goAway
  | reserved
  /-- CANCEL_PUSH, PUSH_PROMISE, MAX_PUSH_ID and everything unknown. -/
  | skipped
  deriving DecidableEq, Repr

def frameKind (t : Nat) : FrameKind :=
  if t = 0x0 then .data
  else if t = 0x1 then .headers
  else if t = 0x4 then .settings
  else if t = 0x7 then .goAway
  else if t = 0x2 ∨ t = 0x6 ∨ t = 0x8 ∨ t = 0x9 then .reserved
  else .skipped

def settingExtendedConnect : Nat := 0x8

def settingDatagram : Nat := 0x33

/-- The loop of `parseSettingsFrame`; the two flags say which settings were read.  Every round
reads a byte, so that the first argument is not used up. -/
def parseSettings : Nat → SettingsFrame → Bool → Bool → List UInt8 →
    Except StreamError SettingsFrame
  | 0, frame, _, _, _ => .ok frame
  | fuel + 1, frame, readDatagram, readExtendedConnect, b =>
    if b = [] then .ok frame
    else
      match QuicVarint.read b with
      | none => .error (.io .eof)
      | some (id, b) =>
        match QuicVarint.read b with
        | none => .error (.io .eof)
        | some (val, b) =>
          if id = settingExtendedConnect then
            if readExtendedConnect then .error (.duplicateSetting id)
            else if val ≠ 0 ∧ val ≠ 1 then .error (.invalidExtendedConnect val)
            else parseSettings fuel { frame with extendedConnect := val = 1 } readDatagram true b
          else if id = settingDatagram then
            if readDatagram then .error (.duplicateSetting id)
            else if val ≠ 0 ∧ val ≠ 1 then .error (.invalidDatagram val)
            else parseSettings fuel { frame with datagram := val = 1 } true readExtendedConnect b
          else if frame.other.any (·.1 = id) then .error (.duplicateSetting id)
          else parseSettings fuel { frame with other := frame.other ++ [(id, val)] }
            readDatagram readExtendedConnect b

def parseSettingsFrame (r : QuicStream) (l : Nat) :
    Except StreamError SettingsFrame × QuicStream :=
  if 8 * 2 ^ 10 < l then (.error (.settingsSize l), r)
  else
    match r.readFull l with
    | (.error .unexpectedEOF, r) => (.error (.io .eof), r)
    | (.error e, r) => (.error (.io e), r)
    | (.ok buf, r) => (parseSettings (l + 1) ⟨false, false, []⟩ false false buf, r)

/-- `parseGoAwayFrame`; the length of the number is that of the bytes it took. -/
def parseGoAwayFrame (r : QuicStream) (l : Nat) : Except StreamError Nat × QuicStream :=
  match QuicVarint.readStream r with
  | (.error e, r) => (.error (.io e), r)
  | (.ok id, r') =>
    if r.rest.length - r'.rest.length ≠ l then (.error .goAwayLength, r') else (.ok id, r')

/-- How `ParseNext` ends: with a frame, with an error, or with an error for which it closed
the connection. -/
inductive Parsed
  | frame (f : Frame)
  | failed (e : StreamError)
  | closed (e : StreamError)
  deriving DecidableEq, Repr

/-- An error, or a frame. -/
def Parsed.ofExcept {α : Type} (f : α → Frame) : Except StreamError α → Parsed
  | .error e => .failed e
  | .ok a => .frame (f a)

/-- `ParseNext`, without an `unknownFrameHandler`.  Every round reads a byte, so that the first
argument is not used up. -/
def parseNext : Nat → QuicStream → Parsed × QuicStream
  | 0, r => (.failed (.io .eof), r)
  | fuel + 1, r =>
    match QuicVarint.readStream r with
    | (.error e, r) => (.failed (.io e), r)
    | (.ok t, r) =>
      match QuicVarint.readStream r with
      | (.error e, r) => (.failed (.io e), r)
      | (.ok l, r) =>
        match frameKind t with
        | .data => (.frame (.data l), r)
        | .headers => (.frame (.headers l), r)
        | .settings => ((parseSettingsFrame r l).map (Parsed.ofExcept .settings) id)
        | .goAway => ((parseGoAwayFrame r l).map (Parsed.ofExcept .goAway) id)
        | .reserved => (.closed (.reservedFrameType t), r)
        | .skipped =>
          match r.copyN l with
          | (some e, r) => (.failed (.io e), r)
          | (none, r) => parseNext fuel r

/-! ## Streams -/

/-- `stream`, with what it reads of its connection. -/
structure Stream where
  str : QuicStream
  perspective : Perspective
  bytesRemainingInFrame : Nat
  parsedTrailer : Bool
  maxHeaderBytes : Nat
  /-- `DecodeFull` and `parseTrailers` succeed. -/
  decodes : List UInt8 → Bool
  trailerCalls : List (List UInt8)

namespace Stream

/-- `newStream`. -/
def new (str : QuicStream) (perspective : Perspective) (maxHeaderBytes : Nat)
    (decodes : List UInt8 → Bool) : Stream :=
  ⟨str, perspective, 0, false, maxHeaderBytes, decodes, []⟩

def cancelRead (s : Stream) (errorCode : Nat) : Stream :=
  { s with str := s.str.cancel (.stream false errorCode) }

/-- `conn.CloseWithError`, with an empty message. -/
def closeWithError (s : Stream) (errorCode : Nat) : Stream :=
  { s with str := s.str.cancel (.application false errorCode "") }

/-- `decodeTrailers`; `none` is nil. -/
def decodeTrailers (s : Stream) (l : Nat) : Option StreamError × QuicStream :=
  if s.maxHeaderBytes < l then (some (.headersTooLarge l s.maxHeaderBytes), s.str)
  else
    match s.str.readFull l with
    | (.error e, r) => (some (.io e), r)
    | (.ok b, r) => (if s.decodes b then none else some .trailers, r)

/-- How the loop of `Read` ends. -/
inductive Looped
  /-- At a DATA frame. -/
  | found
  /-- `Read` returns. -/
  | returned (err : Option StreamError)
  deriving DecidableEq, Repr

/-- The loop of `Read` over the frames.  Every round reads a byte, so that the first argument is
not used up. -/
def parseLoop : Nat → Stream → Looped × Stream
  | 0, s => (.returned (some (.io .eof)), s)
  | fuel + 1, s =>
    match parseNext (s.str.rest.length + 1) s.str with
    | (.failed e, r) => (.returned (some e), { s with str := r })
    | (.closed e, r) =>
      (.returned (some e), { s with str := r }.closeWithError errCodeFrameUnexpected)
    | (.frame (.data l), r) =>
      if s.parsedTrailer then (.returned (some .dataAfterTrailers), { s with str := r })
      else (.found, { s with str := r, bytesRemainingInFrame := l })
    | (.frame (.headers l), r) =>
      match s.perspective with
      | .server => parseLoop fuel { s with str := r }
      | .client =>
        if s.parsedTrailer then (.returned (some .additionalHeaders), { s with str := r })
        else
          let s := { s with
            str := r
            parsedTrailer := true
            trailerCalls := s.trailerCalls ++ [r.rest.take l] }
          (.returned (s.decodeTrailers l).1, { s with str := (s.decodeTrailers l).2 })
    | (.frame (.settings _), r) | (.frame (.goAway _), r) =>
      (.returned (some .unexpectedFrame),
        { s with str := r }.closeWithError errCodeFrameUnexpected)

/-- The end of `Read`: from the payload of the current frame. -/
def readPayload (s : Stream) (n : Nat) :
    (List UInt8 × Option StreamError) × Stream :=
  let room := if s.bytesRemainingInFrame < n then s.bytesRemainingInFrame else n
  match s.str.read room with
  | ((data, err), r) =>
    ((data, err.map .io),
      { s with str := r, bytesRemainingInFrame := s.bytesRemainingInFrame - data.length })

/-- `Read`, into a buffer of `n` bytes. -/
def read (s : Stream) (n : Nat) : (List UInt8 × Option StreamError) × Stream :=
  if s.bytesRemainingInFrame = 0 then
    match parseLoop (s.str.rest.length + 1) s with
    | (.found, s) => s.readPayload n
    | (.returned err, s) => (([], err), s)
  else s.readPayload n

def hasMoreData (s : Stream) : Bool := 0 < s.bytesRemainingInFrame

end Stream

/-! ## Bodies -/

/-- `body`. -/
structure Body where
  str : Stream
  remainingContentLength : Int
  violatedContentLength : Bool
  hasContentLength : Bool

def maybeReplaceError : StreamError → StreamError
  | .io (.other (.stream remote errorCode)) => .http3 ⟨remote, errorCode, ""⟩
  | .io (.other (.application remote errorCode errorMessage)) =>
    .http3 ⟨remote, errorCode, errorMessage⟩
  | e => e

namespace Body

/-- `newBody`. -/
def new (str : Stream) (contentLength : Int) : Body :=
  if 0 ≤ contentLength then ⟨str, contentLength, false, true⟩ else ⟨str, 0, false, false⟩

/-- The condition in `checkContentLengthViolation`. -/
def violated (r : Body) : Bool :=
  r.hasContentLength && (decide (r.remainingContentLength < 0) ||
    decide (r.remainingContentLength = 0) && r.str.hasMoreData)

/-- What `checkContentLengthViolation` does when it is violated: reading is canceled once. -/
def violate (r : Body) : Body :=
  if r.violatedContentLength then r
  else { r with str := r.str.cancelRead errCodeMessageError, violatedContentLength := true }

/-- `Read`, into a buffer of `n` bytes. -/
def read (r : Body) (n : Nat) : (List UInt8 × Option StreamError) × Body :=
  if r.violated then (([], some .tooMuchData), r.violate)
  else
    let n := if r.hasContentLength then min n r.remainingContentLength.toNat else n
    match r.str.read n with
    | ((data, err), str) =>
      let r := { r with
        str := str
        remainingContentLength := r.remainingContentLength - data.length }
      if r.violated then ((data, some .tooMuchData), r.violate)
      else ((data, err.map maybeReplaceError), r)

end Body

/-! ## Readers -/

/-- A `Read` method: what it returns for a buffer of a size, and what it leaves. -/
abbrev Reader (σ : Type) := σ → Nat → (List UInt8 × Option StreamError) × σ

namespace Reader

variable {σ : Type}

/-- The state after a number of reads, with buffers of the given sizes. -/
def after (read : Reader σ) (s : σ) (sizes : Nat → Nat) : Nat → σ
  | 0 => s
  | i + 1 => (read (after read s sizes i) (sizes i)).2

def returned (read : Reader σ) (s : σ) (sizes : Nat → Nat) (i : Nat) :
    List UInt8 × Option StreamError :=
  (read (after read s sizes i) (sizes i)).1

/-- The data of the first `n` reads. -/
def data (read : Reader σ) (s : σ) (sizes : Nat → Nat) (n : Nat) : List UInt8 :=
  (List.range n).flatMap fun i => (returned read s sizes i).1

variable {read : Reader σ} {s : σ} {sizes : Nat → Nat}

theorem data_succ (n : Nat) :
    data read s sizes (n + 1) = data read s sizes n ++ (returned read s sizes n).1 := by
  rw [data, List.range_succ, List.flatMap_append, List.flatMap_singleton]
  rfl

end Reader

/-! ## The number of bytes -/

theorem Stream.length_read_le (s : Stream) (n : Nat) : (s.read n).1.1.length ≤ n := by
  have hpayload : ∀ s : Stream, (s.readPayload n).1.1.length ≤ n := by
    intro s
    rw [readPayload]
    generalize hroom : (if s.bytesRemainingInFrame < n then s.bytesRemainingInFrame else n) = room
    have hle : room ≤ n := by
      rw [← hroom]
      split <;> omega
    obtain ⟨k, err, hread, hk, -⟩ := s.str.read_cases room
    dsimp only
    rw [hread, List.length_take]
    omega
  rw [read]
  split
  · split
    · exact hpayload _
    · exact Nat.zero_le n
  · exact hpayload s

namespace Body

/-- Of the Content-Length `c`, `k` bytes have been returned. -/
structure Counts (r : Body) (c : Int) (k : Nat) : Prop where
  has : r.hasContentLength = true
  nonneg : 0 ≤ r.remainingContentLength
  sum : r.remainingContentLength + k = c

variable {r : Body} {c : Int} {k : Nat}

theorem Counts.violate (h : r.Counts c k) : r.violate.Counts c k := by
  rw [Body.violate]
  split
  · exact h
  · exact ⟨h.has, h.nonneg, h.sum⟩

theorem Counts.read (h : r.Counts c k) (n : Nat) :
    (r.read n).2.Counts c (k + (r.read n).1.1.length) := by
  rw [Body.read]
  split
  · exact h.violate
  · dsimp only
    rw [if_pos h.has]
    have hle := r.str.length_read_le (min n r.remainingContentLength.toNat)
    rcases hread : r.str.read (min n r.remainingContentLength.toNat) with ⟨⟨data, err⟩, str⟩
    rw [hread] at hle
    have hcounts : Counts { r with
        str := str
        remainingContentLength := r.remainingContentLength - data.length } c (k + data.length) := by
      have hnonneg := h.nonneg
      have hsum := h.sum
      refine ⟨h.has, ?_, ?_⟩
      · dsimp only at hle ⊢
        omega
      · dsimp only
        omega
    split
    · exact hcounts.violate
    · exact hcounts

theorem counts_after (h : r.Counts c 0) (sizes : Nat → Nat) : ∀ i,
    (Reader.after read r sizes i).Counts c (Reader.data read r sizes i).length := by
  intro i
  induction i with
  | zero => exact h
  | succ i ih =>
    rw [Reader.data_succ, List.length_append]
    exact ih.read (sizes i)

/-- **A body is never longer than its Content-Length**, whatever the peer sends, however it
arrives, and also when the caller reads on after an error. -/
theorem length_data_le (str : Stream) (hc : 0 ≤ c) (sizes : Nat → Nat) (i : Nat) :
    ((Reader.data read (new str c) sizes i).length : Int) ≤ c := by
  have hcounts : (new str c).Counts c 0 := by
    rw [new, if_pos hc]
    exact ⟨rfl, hc, Int.add_zero c⟩
  have hafter := counts_after hcounts sizes i
  have hnonneg := hafter.nonneg
  have hsum := hafter.sum
  omega

end Body

/-- A stream of the given bytes that yields them one by one. -/
def byteByByte (l : List UInt8) : QuicStream := ⟨l, .eof, fun _ => (0, true), 0⟩

-- It may be shorter: `io.EOF` of the QUIC stream is passed on from inside a DATA frame, and
-- before the Content-Length is reached.
example : (Body.read (.new (.new (byteByByte [0x0, 0x5, 0x41]) .client 100 fun _ => true) 5) 2).1 =
    ([0x41], some (.io .eof)) := by
  decide +kernel

-- And it may have bytes that are no data: a server goes on after the header of a HEADERS frame
-- as if it had no payload.
example : (Body.read (.new (.new (byteByByte [0x1, 0x3, 0x0, 0x1, 0x41]) .server 100
    fun _ => true) (-1)) 2).1 = ([0x41], some (.io .eof)) := by
  decide +kernel

end UQuic.HTTP3
