/-
# `UQuic.FlowControl` — the flow controllers of streams and of the connection

`internal/flowcontrol`.  A stream's controller and the connection's share one
base.  A stream reports everything it receives, reads and sends to the
connection as well, so the calls below take the connection's controller and
return it.

    receiving   highestReceived ≤ receiveWindow      checked when data arrives
                receiveWindow   := bytesRead + receiveWindowSize    on an update
    sending     bytesSent       ≤ sendWindow         checked before data is cut

Two products are computed in `float64`; they are parameters (`FloatOps`).  Whether
a window was used up too fast, which depends on clocks and round-trip times, and
whether the application allows a larger window, are arguments (`Tuning`), so the
start of the current epoch is not kept.

`protocol.ByteCount` is an `int64` and `Int` here.  Offsets and windows are assumed to stay below
2^62, beyond which no frame can carry them, so that no sum or difference of two wraps around.

## What is proved

    Received    all that `UpdateHighestReceived` can do, errors included
    Widens      all that a window update can do
-/
import UQuic.Protocol

namespace UQuic

/-- `qerr.TransportErrorCode`, as far as it is used. -/
inductive TransportErrorCode
  | flowControlError
  | finalSizeError
  deriving DecidableEq, Repr

/-- `qerr.TransportError`. -/
structure TransportError where
  errorCode : TransportErrorCode
  errorMessage : String
  deriving DecidableEq, Repr

namespace FlowControl

/-- The products computed in `float64`. -/
structure FloatOps where
  /-- `size * (1 - protocol.WindowUpdateThreshold)`. -/
  threshold : Int → Int
  /-- `size * protocol.ConnectionFlowControlMultiplier`. -/
  connectionSize : Int → Int

/-- The products without a rounding error. -/
def FloatOps.exact : FloatOps := ⟨fun size => size * 3 / 4, fun size => size * 3 / 2⟩

/-- The decisions of auto-tuning. -/
structure Tuning where
  /-- More than half of the window was read in this epoch, and too fast for the
  round-trip time. -/
  fast : Bool
  /-- `allowWindowIncrease`, asked by the connection. -/
  allowed : Bool
  deriving DecidableEq, Repr

/-- `baseFlowController`. -/
structure BaseFlowController where
  bytesSent : Int
  sendWindow : Int
  lastBlockedAt : Int
  bytesRead : Int
  highestReceived : Int
  receiveWindow : Int
  receiveWindowSize : Int
  maxReceiveWindowSize : Int
  deriving DecidableEq, Repr

namespace BaseFlowController

def sendWindowSize (c : BaseFlowController) : Int :=
  if c.sendWindow < c.bytesSent then 0 else c.sendWindow - c.bytesSent

/-- `IsNewlyBlocked`, with the offset if it is. -/
def isNewlyBlocked (c : BaseFlowController) : BaseFlowController × Option Int :=
  if c.sendWindowSize ≠ 0 ∨ c.sendWindow = c.lastBlockedAt then (c, none)
  else ({ c with lastBlockedAt := c.sendWindow }, some c.sendWindow)

def addBytesSent (c : BaseFlowController) (n : Int) : BaseFlowController :=
  { c with bytesSent := c.bytesSent + n }

/-- `UpdateSendWindow`, and whether it did. -/
def updateSendWindow (c : BaseFlowController) (offset : Int) : BaseFlowController × Bool :=
  if c.sendWindow < offset then ({ c with sendWindow := offset }, true) else (c, false)

/-- What the window has room for may be sent. -/
theorem bytesSent_add_le {c : BaseFlowController} {n : Int} (hpos : 0 < n)
    (h : n ≤ c.sendWindowSize) : c.bytesSent + n ≤ c.sendWindow := by
  rw [sendWindowSize] at h
  split at h <;> omega

theorem isNewlyBlocked_fst (c : BaseFlowController) :
    ∃ n, c.isNewlyBlocked.1 = { c with lastBlockedAt := n } := by
  rw [isNewlyBlocked]
  split
  · exact ⟨c.lastBlockedAt, rfl⟩
  · exact ⟨c.sendWindow, rfl⟩

theorem updateSendWindow_fst (c : BaseFlowController) (offset : Int) :
    (c.updateSendWindow offset).1 = { c with sendWindow := max c.sendWindow offset } := by
  rw [updateSendWindow]
  split
  · rw [max_eq_right (by omega)]
  · rw [max_eq_left (by omega)]

def addBytesRead (c : BaseFlowController) (n : Int) : BaseFlowController :=
  { c with bytesRead := c.bytesRead + n }

def hasWindowUpdate (F : FloatOps) (c : BaseFlowController) : Bool :=
  c.receiveWindow - c.bytesRead ≤ F.threshold c.receiveWindowSize

def maybeAdjustWindowSize (c : BaseFlowController) (t : Tuning) : BaseFlowController :=
  if t.fast then
    let newSize := min (2 * c.receiveWindowSize) c.maxReceiveWindowSize
    if c.receiveWindowSize < newSize ∧ t.allowed then { c with receiveWindowSize := newSize } else c
  else c

/-- `getWindowUpdate`: the new offset, or 0. -/
def getWindowUpdate (F : FloatOps) (c : BaseFlowController) (t : Tuning) :
    BaseFlowController × Int :=
  if c.hasWindowUpdate F then
    let c := c.maybeAdjustWindowSize t
    ({ c with receiveWindow := c.bytesRead + c.receiveWindowSize },
      c.bytesRead + c.receiveWindowSize)
  else (c, 0)

def checkFlowControlViolation (c : BaseFlowController) : Bool := c.receiveWindow < c.highestReceived

end BaseFlowController

/-! ## The connection -/

/-- `connectionFlowController`. -/
abbrev ConnectionFlowController := BaseFlowController

namespace ConnectionFlowController

/-- `NewConnectionFlowController`. -/
def new (receiveWindow maxReceiveWindow : Int) : ConnectionFlowController :=
  ⟨0, 0, 0, 0, 0, receiveWindow, receiveWindow, maxReceiveWindow⟩

def violation (received allowed : Int) : TransportError :=
  ⟨.flowControlError, s!"received {received} bytes for the connection, allowed {allowed} bytes"⟩

def incrementHighestReceived (c : ConnectionFlowController) (increment : Int) :
    ConnectionFlowController × Option TransportError :=
  let c := { c with highestReceived := c.highestReceived + increment }
  (c, if c.checkFlowControlViolation then some (violation c.highestReceived c.receiveWindow)
    else none)

def ensureMinimumWindowSize (c : ConnectionFlowController) (inc : Int) (t : Tuning) :
    ConnectionFlowController :=
  if inc ≤ c.receiveWindowSize then c
  else
    let newSize := min inc c.maxReceiveWindowSize
    if 0 < newSize - c.receiveWindowSize ∧ t.allowed then { c with receiveWindowSize := newSize }
    else c

end ConnectionFlowController

/-! ## Streams -/

/-- `streamFlowController`. -/
structure StreamFlowController where
  streamID : Nat
  base : BaseFlowController
  receivedFinalOffset : Bool
  deriving DecidableEq, Repr

namespace StreamFlowController

/-- `NewStreamFlowController`. -/
def new (streamID : Nat) (receiveWindow maxReceiveWindow initialSendWindow : Int) :
    StreamFlowController :=
  ⟨streamID, ⟨0, initialSendWindow, 0, 0, 0, receiveWindow, receiveWindow, maxReceiveWindow⟩, false⟩

def inconsistentFinalOffset (streamID : Nat) (old new : Int) : TransportError :=
  ⟨.finalSizeError, s!"received inconsistent final offset for stream {streamID} " ++
    s!"(old: {old}, new: {new} bytes)"⟩

def pastFinalOffset (streamID : Nat) (offset final : Int) : TransportError :=
  ⟨.finalSizeError, s!"received offset {offset} for stream {streamID}, " ++
    s!"but final offset was already received at {final}"⟩

def finalOffsetTooLow (streamID : Nat) (offset highest : Int) : TransportError :=
  ⟨.finalSizeError, s!"received final offset {offset} for stream {streamID}, " ++
    s!"but already received offset {highest} before"⟩

def violation (streamID : Nat) (offset allowed : Int) : TransportError :=
  ⟨.flowControlError, s!"received {offset} bytes on stream {streamID}, allowed {allowed} bytes"⟩

/-- The check against a final offset that is already known. -/
def checkFinalOffset (c : StreamFlowController) (offset : Int) (final : Bool) :
    Option TransportError :=
  if c.receivedFinalOffset then
    if final ∧ offset ≠ c.base.highestReceived then
      some (inconsistentFinalOffset c.streamID c.base.highestReceived offset)
    else if c.base.highestReceived < offset then
      some (pastFinalOffset c.streamID offset c.base.highestReceived)
    else none
  else none

/-- What a call leaves behind, and its error. -/
structure Updated where
  stream : StreamFlowController
  conn : ConnectionFlowController
  err : Option TransportError
  deriving DecidableEq, Repr

/-- `UpdateHighestReceived` for a higher offset. -/
def raise (c : StreamFlowController) (conn : ConnectionFlowController) (offset : Int) : Updated :=
  let c' := { c with base := { c.base with highestReceived := offset } }
  if c'.base.checkFlowControlViolation then
    ⟨c', conn, some (violation c.streamID offset c.base.receiveWindow)⟩
  else
    let r := conn.incrementHighestReceived (offset - c.base.highestReceived)
    ⟨c', r.1, r.2⟩

def updateHighestReceived (c : StreamFlowController) (conn : ConnectionFlowController)
    (offset : Int) (final : Bool) : Updated :=
  match c.checkFinalOffset offset final with
  | some e => ⟨c, conn, some e⟩
  | none =>
    let c := { c with receivedFinalOffset := c.receivedFinalOffset || final }
    if offset = c.base.highestReceived then ⟨c, conn, none⟩
    else if offset < c.base.highestReceived then
      ⟨c, conn, if final then
        some (finalOffsetTooLow c.streamID offset c.base.highestReceived) else none⟩
    else c.raise conn offset

/-- What `AddBytesRead` returns: whether a window update is due on either level. -/
structure Due where
  stream : Bool
  conn : Bool
  deriving DecidableEq, Repr

def addBytesRead (F : FloatOps) (c : StreamFlowController) (conn : ConnectionFlowController)
    (n : Int) : StreamFlowController × ConnectionFlowController × Due :=
  let c := { c with base := c.base.addBytesRead n }
  let conn := conn.addBytesRead n
  (c, conn, ⟨!c.receivedFinalOffset && c.base.hasWindowUpdate F, conn.hasWindowUpdate F⟩)

def abandon (c : StreamFlowController) (conn : ConnectionFlowController) :
    StreamFlowController × ConnectionFlowController :=
  let unread := c.base.highestReceived - c.base.bytesRead
  ({ c with base := { c.base with bytesRead := c.base.highestReceived } },
    if 0 < unread then conn.addBytesRead unread else conn)

def addBytesSent (c : StreamFlowController) (conn : ConnectionFlowController) (n : Int) :
    StreamFlowController × ConnectionFlowController :=
  ({ c with base := c.base.addBytesSent n }, conn.addBytesSent n)

def sendWindowSize (c : StreamFlowController) (conn : ConnectionFlowController) : Int :=
  min c.base.sendWindowSize conn.sendWindowSize

theorem sendWindowSize_nonneg (c : StreamFlowController) (conn : ConnectionFlowController) :
    0 ≤ c.sendWindowSize conn := by
  simp only [sendWindowSize, BaseFlowController.sendWindowSize]
  split <;> split <;> omega

def isNewlyBlocked (c : StreamFlowController) : StreamFlowController × Bool :=
  let r := c.base.isNewlyBlocked
  ({ c with base := r.1 }, r.2.isSome)

def updateSendWindow (c : StreamFlowController) (offset : Int) : StreamFlowController × Bool :=
  let r := c.base.updateSendWindow offset
  ({ c with base := r.1 }, r.2)

/-- `GetWindowUpdate`.  A stream needs nobody's permission for a larger window; the
connection's window follows it. -/
def getWindowUpdate (F : FloatOps) (c : StreamFlowController) (conn : ConnectionFlowController)
    (t : Tuning) : StreamFlowController × ConnectionFlowController × Int :=
  if c.receivedFinalOffset then (c, conn, 0)
  else
    let r := c.base.getWindowUpdate F { t with allowed := true }
    ({ c with base := r.1 },
      if c.base.receiveWindowSize < r.1.receiveWindowSize then
        conn.ensureMinimumWindowSize (F.connectionSize r.1.receiveWindowSize) t else conn, r.2)

end StreamFlowController

/-! ## What arrives -/

/-- The error accuses the peer of exceeding a window. -/
def Accuses (e : Option TransportError) : Prop :=
  ∃ err ∈ e, err.errorCode = .flowControlError

instance (e : Option TransportError) : Decidable (Accuses e) :=
  match e with
  | none => .isFalse fun ⟨_, he, _⟩ => by cases he
  | some err => decidable_of_iff (err.errorCode = .flowControlError)
      ⟨fun h => ⟨err, rfl, h⟩, fun ⟨_, he, h⟩ => by cases he; exact h⟩

theorem not_accuses_none : ¬ Accuses none := fun ⟨_, he, _⟩ => by cases he

theorem not_accuses_finalSize {e : TransportError} (he : e.errorCode = .finalSizeError) :
    ¬ Accuses (some e) := by
  rintro ⟨_, h, hcode⟩
  cases h
  rw [he] at hcode
  cases hcode

/-- Everything `UpdateHighestReceived` can do. -/
structure Received (c : StreamFlowController) (conn : ConnectionFlowController) (offset : Int)
    (final : Bool) (r : StreamFlowController.Updated) : Prop where
  /-- Nothing but the highest offsets and the final flag changes. -/
  streamID : r.stream.streamID = c.streamID
  streamRest : r.stream.base = { c.base with highestReceived := r.stream.base.highestReceived }
  connRest : r.conn = { conn with highestReceived := r.conn.highestReceived }
  le : c.base.highestReceived ≤ r.stream.base.highestReceived
  upper : r.stream.base.highestReceived ≤ max c.base.highestReceived offset
  /-- A known final offset stays. -/
  known : c.receivedFinalOffset = true →
    r.stream.receivedFinalOffset = true ∧ r.stream.base.highestReceived = c.base.highestReceived
  accepted : r.err = none →
    r.stream.base.highestReceived = max c.base.highestReceived offset ∧
      (final = true → r.stream.receivedFinalOffset = true ∧ r.stream.base.highestReceived = offset)
  /-- Both levels count the same bytes. -/
  moved : ¬ Accuses r.err → r.stream.base.highestReceived - c.base.highestReceived =
    r.conn.highestReceived - conn.highestReceived
  accused : Accuses r.err → c.base.highestReceived < offset ∧ (c.base.receiveWindow < offset ∨
    conn.receiveWindow < conn.highestReceived + (offset - c.base.highestReceived))

namespace StreamFlowController

variable {c : StreamFlowController} {conn : ConnectionFlowController} {offset : Int} {final : Bool}

theorem received_same {known : Bool} {err : Option TransportError}
    (hknown : c.receivedFinalOffset = true → known = true) (hnot : ¬ Accuses err)
    (hok : err = none → offset ≤ c.base.highestReceived ∧
      (final = true → known = true ∧ c.base.highestReceived = offset)) :
    Received c conn offset final ⟨{ c with receivedFinalOffset := known }, conn, err⟩ where
  streamID := rfl
  streamRest := rfl
  connRest := rfl
  le := le_rfl
  upper := le_max_left _ _
  known h := ⟨hknown h, rfl⟩
  accepted h := ⟨(max_eq_left (hok h).1).symm, (hok h).2⟩
  moved _ := by rw [Int.sub_self, Int.sub_self]
  accused h := absurd h hnot

theorem received_raise (hlt : c.base.highestReceived < offset)
    (hfresh : c.receivedFinalOffset = false) :
    Received c conn offset final
      ({ c with receivedFinalOffset := c.receivedFinalOffset || final }.raise conn offset) := by
  have hmax : offset = max c.base.highestReceived offset := (max_eq_right hlt.le).symm
  have hfinal : final = true → (c.receivedFinalOffset || final) = true := fun h => by
    rw [h, Bool.or_true]
  have hknown : c.receivedFinalOffset ≠ true := by
    rw [hfresh]
    exact Bool.false_ne_true
  simp only [raise]
  split_ifs with hviolation
  · exact ⟨rfl, rfl, rfl, hlt.le, le_max_right _ _, fun h => absurd h hknown, (fun h => by cases h),
      fun h => absurd ⟨_, rfl, rfl⟩ h, fun _ => ⟨hlt, .inl (of_decide_eq_true hviolation)⟩⟩
  · simp only [ConnectionFlowController.incrementHighestReceived]
    refine ⟨rfl, rfl, rfl, hlt.le, le_max_right _ _, fun h => absurd h hknown,
      fun _ => ⟨hmax, fun h => ⟨hfinal h, rfl⟩⟩, fun _ => ?_, ?_⟩
    · dsimp only
      omega
    · split_ifs with hviolation
      · exact fun _ => ⟨hlt, .inr (of_decide_eq_true hviolation)⟩
      · exact fun h => absurd h not_accuses_none

/-- **One report of received data.** -/
theorem received_updateHighestReceived :
    Received c conn offset final (c.updateHighestReceived conn offset final) := by
  simp only [updateHighestReceived]
  cases hcheck : c.checkFinalOffset offset final with
  | some e =>
    refine received_same id ?_ (fun h => by cases h)
    simp only [checkFinalOffset] at hcheck
    split at hcheck
    · split at hcheck
      · cases hcheck
        exact not_accuses_finalSize rfl
      · split_ifs at hcheck
        cases hcheck
        exact not_accuses_finalSize rfl
    · cases hcheck
  | none =>
    have hknown : c.receivedFinalOffset = true → (c.receivedFinalOffset || final) = true :=
      fun h => by rw [h, Bool.true_or]
    have hfinal : final = true → (c.receivedFinalOffset || final) = true := fun h => by
      rw [h, Bool.or_true]
    dsimp only
    split
    · rename_i heq
      exact received_same hknown not_accuses_none fun _ =>
        ⟨heq.le, fun h => ⟨hfinal h, heq.symm⟩⟩
    · rename_i hne
      split
      · rename_i hlt
        cases final with
        | false => exact received_same hknown not_accuses_none fun _ =>
          ⟨hlt.le, fun h => absurd h Bool.false_ne_true⟩
        | true => exact received_same hknown (not_accuses_finalSize rfl) fun h => by cases h
      · rename_i hge
        have hlt : c.base.highestReceived < offset := by omega
        refine received_raise hlt ?_
        -- With a known final offset, a higher one would have been an error.
        cases hfresh : c.receivedFinalOffset with
        | false => rfl
        | true =>
          simp only [checkFinalOffset, hfresh, if_pos] at hcheck
          split at hcheck <;> cases hcheck

end StreamFlowController

/-! ## Windows -/

namespace BaseFlowController

/-- Auto-tuning only enlarges the size of the window. -/
theorem maybeAdjustWindowSize_eq (c : BaseFlowController) (t : Tuning) :
    ∃ size, c.receiveWindowSize ≤ size ∧
      c.maybeAdjustWindowSize t = { c with receiveWindowSize := size } := by
  simp only [maybeAdjustWindowSize]
  split
  · split_ifs with h
    · exact ⟨_, h.1.le, rfl⟩
    · exact ⟨_, le_rfl, rfl⟩
  · exact ⟨_, le_rfl, rfl⟩

end BaseFlowController

/-- What a window update does: the size only grows, and the window either stays or is
what was read and the size together. -/
structure Widens (c c' : BaseFlowController) (offset : Int) : Prop where
  rest : c' = { c with
    receiveWindow := c'.receiveWindow, receiveWindowSize := c'.receiveWindowSize }
  size : c.receiveWindowSize ≤ c'.receiveWindowSize
  window : c'.receiveWindow = c.receiveWindow ∧ offset = 0 ∨
    c'.receiveWindow = c.bytesRead + c'.receiveWindowSize ∧ offset = c'.receiveWindow

theorem widens_refl (c : BaseFlowController) : Widens c c 0 :=
  ⟨rfl, le_rfl, .inl ⟨rfl, rfl⟩⟩

theorem BaseFlowController.widens_getWindowUpdate (F : FloatOps) (c : BaseFlowController)
    (t : Tuning) : Widens c (c.getWindowUpdate F t).1 (c.getWindowUpdate F t).2 := by
  simp only [getWindowUpdate]
  split
  · obtain ⟨size, hle, heq⟩ := maybeAdjustWindowSize_eq c t
    rw [heq]
    exact ⟨rfl, hle, .inr ⟨rfl, rfl⟩⟩
  · exact widens_refl c

theorem ConnectionFlowController.widens_ensureMinimumWindowSize (c : ConnectionFlowController)
    (inc : Int) (t : Tuning) : Widens c (ensureMinimumWindowSize c inc t) 0 := by
  simp only [ensureMinimumWindowSize]
  split
  · exact widens_refl c
  · split_ifs with h
    · exact ⟨rfl, (Int.sub_pos.mp h.1).le, .inl ⟨rfl, rfl⟩⟩
    · exact widens_refl c

/-- **A stream's update** may widen the connection's window with its own. -/
theorem StreamFlowController.widens_getWindowUpdate (F : FloatOps) (c : StreamFlowController)
    (conn : ConnectionFlowController) (t : Tuning) :
    let r := c.getWindowUpdate F conn t
    Widens c.base r.1.base r.2.2 ∧ Widens conn r.2.1 0 ∧
      r.1.receivedFinalOffset = c.receivedFinalOffset ∧ r.1.streamID = c.streamID := by
  simp only [getWindowUpdate]
  split
  · exact ⟨widens_refl _, widens_refl _, rfl, rfl⟩
  · refine ⟨BaseFlowController.widens_getWindowUpdate F c.base _, ?_, rfl, rfl⟩
    dsimp only
    split
    · exact ConnectionFlowController.widens_ensureMinimumWindowSize conn _ t
    · exact widens_refl conn

end FlowControl

end UQuic
