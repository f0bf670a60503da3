/-
# `UQuic.ReceiveAccounting` — what a receive stream owes its connection

Every byte that a stream has received and not read is credit that the peer waits
for.  `Read` returns it byte by byte; RESET_STREAM, `CancelRead` and a late FIN
return all of it at once (`Abandon`), and these may follow each other in any order.

## What is proved

    Sound       the invariant of a stream, also in the middle of a call:
                `bytesRead` is where the application stands, until the credit of an
                abandoned stream is returned, after which nothing is read any more
    Accounted   the invariant between calls: a stream that was reported as completed
                has returned all of its credit
    Effect      a call moves the counters of the stream and of the connection
                together (`Transfer`), or it widens their windows

`Accounted.call` says that one call keeps the invariant and has such an effect, unless
it accuses the peer of exceeding a window.

## How

Nothing past the highest offset arrived at the sorter, so a stream that was read to
its final offset was read to the highest one.  The rest follows the
calls: one lemma for each way to take, drop or return bytes, and an induction on the
rounds of `Read`.
-/
import UQuic.ReceiveStream
import UQuic.Reassembly

namespace UQuic

open List Option Bool
open FlowControl

/-! ## Both levels move together -/

/-- The counters of the stream and of the connection change by the same amounts, and
nothing else does. -/
structure Transfer (c c' : StreamFlowController)
    (conn conn' : ConnectionFlowController) : Prop where
  streamID : c'.streamID = c.streamID
  stream : c'.base = { c.base with
    bytesRead := c'.base.bytesRead, highestReceived := c'.base.highestReceived }
  whole : conn' = { conn with
    bytesRead := conn'.bytesRead, highestReceived := conn'.highestReceived }
  highest : c'.base.highestReceived - c.base.highestReceived =
    conn'.highestReceived - conn.highestReceived
  read : c'.base.bytesRead - c.base.bytesRead = conn'.bytesRead - conn.bytesRead
  mono : c.base.bytesRead ≤ c'.base.bytesRead

namespace Transfer

variable {c c' c'' : StreamFlowController} {conn conn' conn'' : ConnectionFlowController}

theorem sub_self_eq (a b : Int) : a - a = b - b := by
  rw [Int.sub_self, Int.sub_self]

theorem refl (c : StreamFlowController) (conn : ConnectionFlowController) :
    Transfer c c conn conn :=
  ⟨rfl, rfl, rfl, sub_self_eq _ _, sub_self_eq _ _, le_rfl⟩

theorem trans (h : Transfer c c' conn conn') (h' : Transfer c' c'' conn' conn'') :
    Transfer c c'' conn conn'' := by
  have h₁ := h.highest
  have h₂ := h'.highest
  have h₃ := h.read
  have h₄ := h'.read
  refine ⟨h'.streamID.trans h.streamID, ?_, ?_, by omega, by omega, h.mono.trans h'.mono⟩
  · rw [h'.stream, h.stream]
  · rw [h'.whole, h.whole]

theorem addBytesRead (F : FloatOps) (c : StreamFlowController) (conn : ConnectionFlowController)
    (n : Nat) : Transfer c (c.addBytesRead F conn n).1 conn (c.addBytesRead F conn n).2.1 := by
  refine ⟨rfl, rfl, rfl, sub_self_eq _ _, ?_, Int.le_add_of_nonneg_right (Int.natCast_nonneg n)⟩
  show c.base.bytesRead + n - c.base.bytesRead = conn.bytesRead + n - conn.bytesRead
  omega

theorem abandon (hle : c.base.bytesRead ≤ c.base.highestReceived) :
    Transfer c (c.abandon conn).1 conn (c.abandon conn).2 := by
  simp only [StreamFlowController.abandon]
  split
  · refine ⟨rfl, rfl, rfl, sub_self_eq _ _, ?_, hle⟩
    show c.base.highestReceived - c.base.bytesRead =
      conn.bytesRead + (c.base.highestReceived - c.base.bytesRead) - conn.bytesRead
    omega
  · refine ⟨rfl, rfl, rfl, sub_self_eq _ _, ?_, hle⟩
    show c.base.highestReceived - c.base.bytesRead = conn.bytesRead - conn.bytesRead
    omega

/-- Receiving data, unless the peer is accused. -/
theorem received {offset : Int} {final : Bool} {u : StreamFlowController.Updated}
    (hr : Received c conn offset final u) (hok : ¬ Accuses u.err) :
    Transfer c u.stream conn u.conn := by
  have hstream : u.stream.base.bytesRead = c.base.bytesRead := by rw [hr.streamRest]
  have hconn : u.conn.bytesRead = conn.bytesRead := by rw [hr.connRest]
  refine ⟨hr.streamID, ?_, ?_, hr.moved hok, ?_, hstream.ge⟩
  · rw [hstream]
    exact hr.streamRest
  · rw [hconn]
    exact hr.connRest
  · rw [hstream, hconn]
    exact sub_self_eq _ _

end Transfer

/-! ## The invariant of a stream -/

variable {err : Option TransportError}

namespace ReceiveStream

variable {F : FloatOps} {s s' : ReceiveStream} {conn conn' : ConnectionFlowController}
  {r r' : Reading}

/-- What `Read` was given. -/
abbrev bytesRead (s : ReceiveStream) : Int := s.flowController.base.bytesRead

/-- The highest offset received. -/
abbrev highestReceived (s : ReceiveStream) : Int := s.flowController.base.highestReceived

/-- What is left of the current frame. -/
def unread (s : ReceiveStream) : Nat := s.currentLen - s.readPosInFrame

/-- The credit was returned, and nothing is read any more. -/
def Abandoned (s : ReceiveStream) : Prop :=
  s.bytesRead = s.highestReceived ∧ s.flowController.receivedFinalOffset = true ∧
    (s.cancelledRemotely = true ∨ s.cancelledLocally = true)

/-- The invariant of a stream, also in the middle of a call. -/
structure Sound (s : ReceiveStream) : Prop where
  queued : s.frameQueue.Shape
  arrived : ∀ x, s.frameQueue.Received x → (x : Int) < s.highestReceived
  readPos : (s.frameQueue.readPos : Int) ≤ s.highestReceived
  bound : s.highestReceived ≤ maxByteCount
  /-- The application stands where the flow controller thinks it does. -/
  counted : s.bytesRead + s.unread = s.frameQueue.readPos ∨ s.Abandoned
  final : s.finalOffset ≠ maxByteCount →
    s.flowController.receivedFinalOffset = true ∧ s.highestReceived = s.finalOffset
  last : s.currentFrameIsLast = true → s.finalOffset ≤ s.frameQueue.readPos
  remote : s.cancelledRemotely = true →
    s.bytesRead = s.highestReceived ∧ s.flowController.receivedFinalOffset = true
  error : s.errorRead = true → s.cancelledRemotely = true ∨ s.cancelledLocally = true ∨
    (s.currentFrameIsLast = true ∧ s.currentFrame = none)

theorem Sound.bytesRead_le (sd : Sound s) : s.bytesRead ≤ s.highestReceived := by
  have hpos := sd.readPos
  rcases sd.counted with hcounted | habandoned
  · omega
  · exact habandoned.1.le

theorem unread_eq_zero (h : s.currentFrame = none) : s.unread = 0 := by
  rw [unread, currentLen, h]
  exact Nat.zero_sub _

/-- The stream was read to its end: all of its credit was returned. -/
theorem Sound.read_all (sd : Sound s) (hfinal : s.finalOffset ≠ maxByteCount)
    (herr : s.errorRead = true) (hlocal : s.cancelledLocally = false) :
    s.bytesRead = s.highestReceived := by
  rcases sd.error herr with hremote | hlocal' | ⟨hlast, hf⟩
  · exact (sd.remote hremote).1
  · rw [hlocal] at hlocal'
    cases hlocal'
  · have hpos := sd.readPos
    have hend := sd.last hlast
    have heq := (sd.final hfinal).2
    rcases sd.counted with hcounted | habandoned
    · rw [unread_eq_zero hf] at hcounted
      omega
    · exact habandoned.1

/-- Flags and the channel do not matter, except for those that say who gave up. -/
theorem Sound.elsewhere (sd : Sound s)
    {queuedStopSending queuedMaxStreamData completed readChan closeForShutdownErr : Bool}
    {cancelErr : Option Cancellation} {credited : List Nat} :
    Sound { s with
      queuedStopSending := queuedStopSending
      queuedMaxStreamData := queuedMaxStreamData
      completed := completed
      readChan := readChan
      closeForShutdownErr := closeForShutdownErr
      cancelErr := cancelErr
      credited := credited } :=
  { sd with }

/-! ### Reading -/

/-- Nobody has given up, and the end was not read: a `Read` may go on. -/
structure Reads (s : ReceiveStream) : Prop where
  sound : Sound s
  remote : s.cancelledRemotely = false
  locally : s.cancelledLocally = false
  error : s.errorRead = false

theorem Reads.counted (h : Reads s) : s.bytesRead + s.unread = s.frameQueue.readPos := by
  rcases h.sound.counted with hcounted | ⟨-, -, hremote | hlocal⟩
  · exact hcounted
  · rw [h.remote] at hremote
    cases hremote
  · rw [h.locally] at hlocal
    cases hlocal

theorem Reads.not_cancelled (h : Reads s) :
    ¬ (s.cancelledRemotely = true ∨ s.cancelledLocally = true) := by
  rw [h.remote, h.locally]
  exact not_or.mpr ⟨false_ne_true, false_ne_true⟩

/-- What a step of `Read` leaves alone. -/
structure Kept (s s' : ReceiveStream) : Prop where
  finalOffset : s'.finalOffset = s.finalOffset
  remote : s'.cancelledRemotely = s.cancelledRemotely
  locally : s'.cancelledLocally = s.cancelledLocally
  completed : s'.completed = s.completed
  known : s'.flowController.receivedFinalOffset = s.flowController.receivedFinalOffset

theorem Kept.trans {s'' : ReceiveStream} (h : Kept s s') (h' : Kept s' s'') : Kept s s'' :=
  ⟨h'.finalOffset.trans h.finalOffset, h'.remote.trans h.remote, h'.locally.trans h.locally,
    h'.completed.trans h.completed, h'.known.trans h.known⟩

/-- A frame is taken from the queue when the current one is used up. -/
theorem Sound.dequeue (sd : Sound s) (herr : s.errorRead = false)
    (hdone : s.unread = 0) (h : s.dequeueNextFrame = .ok s') :
    Sound s' ∧ Kept s s' ∧ s'.errorRead = false ∧ s'.flowController = s.flowController := by
  obtain ⟨⟨queue, popped⟩, hpop, heq⟩ := Except.map_eq_ok_iff.mp h
  obtain ⟨hshape, hgaps, hoff, hmoved⟩ := FrameSorter.pop_ok (sd.queued.done _) hpop
  have hoff : popped.offset = s.frameQueue.readPos := hoff
  have hmoved : queue.readPos = s.frameQueue.readPos + (popped.data.getD []).length := hmoved
  have harrived : ∀ x, queue.Received x → (x : Int) < s.highestReceived := fun x hx =>
    sd.arrived x ⟨hx.1, hgaps ▸ hx.2⟩
  have hread : (queue.readPos : Int) ≤ s.highestReceived := by
    rcases Nat.eq_zero_or_pos queue.readPos with hz | hpos
    · have := sd.readPos
      omega
    · have := harrived (queue.readPos - 1) (hshape.received_of_lt (by omega))
      omega
  cases heq
  refine ⟨⟨hshape, harrived, hread, sd.bound, ?_, sd.final, ?_, sd.remote, ?_⟩,
    ⟨rfl, rfl, rfl, rfl, rfl⟩,
    herr, rfl⟩
  · rcases sd.counted with hcounted | habandoned
    · refine .inl ?_
      show s.bytesRead + ((popped.data.getD []).length - 0 : Nat) = queue.readPos
      rw [hdone] at hcounted
      rw [hmoved]
      omega
    · exact .inr habandoned
  · intro hlast
    have hlast : s.finalOffset ≤ popped.offset + (popped.data.getD []).length :=
      of_decide_eq_true hlast
    show s.finalOffset ≤ queue.readPos
    omega
  · intro h
    rw [herr] at h
    cases h

/-- Copying data is reported to both flow controllers. -/
theorem Reads.copy (h : Reads s) (F : FloatOps) (conn : ConnectionFlowController) (r : Reading) :
    Reads (s.copyData F conn r).1 ∧ Kept s (s.copyData F conn r).1 ∧
    Transfer s.flowController (s.copyData F conn r).1.flowController conn
    (s.copyData F conn r).2.1 := by
  have hcounted := h.counted
  have hlen : (s.available r).length ≤ s.unread := by
    rw [available, length_take, length_drop, unread, currentLen]
    exact Nat.min_le_right _ _
  rw [copyData_eq F conn r h.remote]
  refine ⟨{ h with sound := ⟨h.sound.queued, h.sound.arrived, h.sound.readPos, h.sound.bound,
    .inl ?_, h.sound.final, h.sound.last, fun hremote => ?_, fun herr => ?_⟩ },
    ⟨rfl, rfl, rfl, rfl, rfl⟩,
    Transfer.addBytesRead F _ _ _⟩
  · show s.bytesRead + (s.available r).length +
      (s.currentLen - (s.readPosInFrame + (s.available r).length) : Nat) = s.frameQueue.readPos
    rw [unread] at hcounted hlen
    omega
  · rw [show s.cancelledRemotely = false from h.remote] at hremote
    cases hremote
  · rw [show s.errorRead = false from h.error] at herr
    cases herr

/-- What a `Read` comes to, for the flow controllers. -/
def Outcome.Accounts (before : ReceiveStream) (conn : ConnectionFlowController) : Outcome → Prop
  | .returned s conn' _ _ =>
    Sound s ∧ Kept before s ∧ Transfer before.flowController s.flowController conn conn' ∧
      (before.completed = true → s.flowController = before.flowController ∧
        (before.errorRead = true → s.errorRead = true))
  | .waiting s conn' _ =>
    Sound s ∧ Kept before s ∧ Transfer before.flowController s.flowController conn conn' ∧
      before.completed = false ∧ s.errorRead = false ∧ s.currentFrame = none
  | .panicked => True

/-- A `Read` in progress, seen from its start. -/
structure Progress (before s : ReceiveStream) (conn₀ conn : ConnectionFlowController) : Prop where
  kept : Kept before s
  moved : Transfer before.flowController s.flowController conn₀ conn
  open_ : before.completed = false

variable {before : ReceiveStream} {conn₀ : ConnectionFlowController}
  {next : ReceiveStream → ConnectionFlowController → Reading → Outcome}

theorem Progress.returned (hp : Progress before s conn₀ conn) (sd : Sound s)
    (due : StreamFlowController.Due) (res : ReadResult) :
    (Outcome.returned s conn due res).Accounts before conn₀ :=
  ⟨sd, hp.kept, hp.moved, fun h => by rw [hp.open_] at h; cases h⟩

theorem Progress.await (hp : Progress before s conn₀ conn) (h : Reads s)
    (hnext : ∀ s' conn' r', Progress before s' conn₀ conn' → Reads s' →
      (next s' conn' r').Accounts before conn₀) :
    (s.await F next conn r).Accounts before conn₀ := by
  rw [ReceiveStream.await]
  split
  · exact hp.returned h.sound _ _
  · rw [if_neg h.not_cancelled]
    split
    · rename_i hwait
      exact ⟨h.sound, hp.kept, hp.moved, hp.open_, h.error, hwait.1⟩
    · split
      · exact hp.returned h.sound _ _
      · have hall := h.copy F conn r
        rcases hcopy : s.copyData F conn r with ⟨s', conn', r'⟩
        rw [hcopy] at hall
        obtain ⟨h', hkept, hmoved⟩ : Reads s' ∧ Kept s s' ∧
          Transfer s.flowController s'.flowController conn conn' := hall
        have hp' : Progress before s' conn₀ conn' :=
          ⟨hp.kept.trans hkept, hp.moved.trans hmoved, hp.open_⟩
        dsimp only
        rw [afterCopy]
        split_ifs with hend
        · -- The current frame was used up, so dropping it moves nothing.
          have hunread : s'.unread = 0 := Nat.sub_eq_zero_of_le hend.1
          have hcounted := h'.counted
          have sd : Sound { s' with
              currentFrame := none
              frameQueue := { s'.frameQueue with
                done := s'.frameQueue.done ++ s'.currentFrameDone.toList }
              errorRead := true } := by
            refine ⟨h'.sound.queued.done _, h'.sound.arrived, h'.sound.readPos, h'.sound.bound,
              .inl ?_, h'.sound.final,
              h'.sound.last, h'.sound.remote, fun _ => .inr (.inr ⟨hend.2, rfl⟩)⟩
            show s'.bytesRead + (0 - s'.readPosInFrame : Nat) = s'.frameQueue.readPos
            rw [hunread] at hcounted
            rw [Nat.zero_sub]
            exact hcounted
          exact ⟨sd, { hp'.kept with }, hp'.moved, fun h => by rw [hp.open_] at h; cases h⟩
        · exact hnext s' conn' r' hp' h'

theorem Reads.dequeue (h : Reads s) (hdone : s.unread = 0) (heq : s.dequeueNextFrame = .ok s') :
    Reads s' ∧ Kept s s' ∧ s'.flowController = s.flowController := by
  obtain ⟨sd, hkept, herr, hflow⟩ := h.sound.dequeue h.error hdone heq
  exact ⟨⟨sd, hkept.remote.trans h.remote, hkept.locally.trans h.locally, herr⟩, hkept, hflow⟩

/-- Nothing is counted when a frame is taken from the queue. -/
theorem Progress.dequeued (hp : Progress before s conn₀ conn) (hkept : Kept s s')
    (hflow : s'.flowController = s.flowController) : Progress before s' conn₀ conn :=
  ⟨hp.kept.trans hkept, hflow ▸ hp.moved, hp.open_⟩

/-- **The read loop** moves the counters together. -/
theorem readLoop_accounts {fuel : Nat} (hp : Progress before s conn₀ conn) (h : Reads s) :
    (readLoop F fuel s conn r).Accounts before conn₀ := by
  induction fuel generalizing s conn r with
  | zero => trivial
  | succ fuel ih =>
    rw [readLoop]
    split
    · exact hp.returned h.sound _ _
    · by_cases hdone : s.currentFrame = none ∨ s.currentLen ≤ s.readPosInFrame
      · rw [if_pos hdone]
        have hunread : s.unread = 0 := by
          rcases hdone with hno | hle
          · exact unread_eq_zero hno
          · exact Nat.sub_eq_zero_of_le hle
        cases heq : s.dequeueNextFrame with
        | error e => trivial
        | ok s' =>
          obtain ⟨h', hkept, hflow⟩ := h.dequeue hunread heq
          have hp' := hp.dequeued hkept hflow
          dsimp only
          split
          · exact hp'.returned h'.sound _ _
          · exact hp'.await h' fun s'' conn' r' hp'' h'' => ih hp'' h''
      · rw [if_neg hdone]
        dsimp only
        split
        · exact hp.returned h.sound _ _
        · exact hp.await h fun s'' conn' r' hp'' h'' => ih hp'' h''

/-- The error of the stream is read. -/
theorem Sound.errorRead (sd : Sound s) (hwhy : s.cancelledRemotely = true ∨
    s.cancelledLocally = true ∨ (s.currentFrameIsLast = true ∧ s.currentFrame = none)) :
    Sound { s with errorRead := true } :=
  { sd with error := fun _ => hwhy }

theorem kept_refl (s : ReceiveStream) : Kept s s := ⟨rfl, rfl, rfl, rfl, rfl⟩

theorem returned_accounts {due : StreamFlowController.Due} {res : ReadResult} (sd : Sound s)
    (hkept : Kept before s) (hflow : s.flowController = before.flowController)
    (herr : before.errorRead = true → s.errorRead = true) :
    (Outcome.returned s conn due res).Accounts before conn :=
  ⟨sd, hkept, hflow ▸ Transfer.refl _ _, fun _ => ⟨hflow, herr⟩⟩

/-- A stream that is completed was cancelled, or its end was read. -/
def CompletedFor (s : ReceiveStream) : Prop :=
  s.completed = true → s.cancelledLocally = true ∨ s.errorRead = true

theorem readImpl_accounts (sd : Sound s) (hwhy : s.CompletedFor) (len : Nat) :
    (s.readImpl F conn len).Accounts s conn := by
  rw [readImpl]
  split
  · rename_i hend
    exact returned_accounts (sd.errorRead (.inr (.inr hend))) ⟨rfl, rfl, rfl, rfl, rfl⟩ rfl
      fun _ => rfl
  · rename_i hnot
    split
    · rename_i hcancelled
      exact returned_accounts (sd.errorRead (hcancelled.imp id .inl)) ⟨rfl, rfl, rfl, rfl, rfl⟩ rfl
        fun _ => rfl
    · rename_i hcancelled
      split
      · exact returned_accounts sd (kept_refl s) rfl id
      · obtain ⟨hremote, hlocal⟩ := not_or.mp hcancelled
        have herr : s.errorRead ≠ true := fun h => by
          rcases sd.error h with h | h | h
          · exact hremote h
          · exact hlocal h
          · exact hnot h
        have h : Reads s := ⟨sd, eq_false_iff.mpr hremote, eq_false_iff.mpr hlocal,
          eq_false_iff.mpr herr⟩
        have hopen : s.completed = false := eq_false_iff.mpr fun hc =>
          (hwhy hc).elim hlocal herr
        exact readLoop_accounts ⟨kept_refl s, Transfer.refl _ _, hopen⟩ h

theorem wake_accounts (sd : Sound s) (hwhy : s.CompletedFor) (herr : s.errorRead = false)
    (hf : s.currentFrame = none) : (s.wake F conn r).Accounts s conn := by
  rw [wake]
  dsimp only
  rw [if_pos hf]
  cases heq : ReceiveStream.dequeueNextFrame { s with readChan := false } with
  | error e => trivial
  | ok s₁ =>
    have hunread : ReceiveStream.unread { s with readChan := false } = 0 :=
      unread_eq_zero hf
    have sd' : Sound { s with readChan := false } := sd.elsewhere
    obtain ⟨sd₁, hkept₁, herror₁, hflow₁⟩ := sd'.dequeue herr hunread heq
    have hkept : Kept s s₁ := { hkept₁ with }
    have hflow : s₁.flowController = s.flowController := hflow₁
    have hquiet : s.errorRead = true → s₁.errorRead = true := fun h => by
      rw [herr] at h
      cases h
    dsimp only
    by_cases hcancelled : s₁.cancelledRemotely = true ∨ s₁.cancelledLocally = true
    · rw [ReceiveStream.await]
      split
      · exact returned_accounts sd₁ hkept hflow hquiet
      · exact returned_accounts (sd₁.errorRead (hcancelled.imp id .inl))
          { hkept with } hflow
          fun _ => rfl
    · obtain ⟨hremote, hlocal⟩ := not_or.mp hcancelled
      have h₁ : Reads s₁ := ⟨sd₁, eq_false_iff.mpr hremote, eq_false_iff.mpr hlocal, herror₁⟩
      have hopen : s.completed = false := eq_false_iff.mpr fun hc => by
        rcases hwhy hc with h | h
        · exact hlocal (hkept.locally.trans h)
        · rw [herr] at h
          cases h
      have hp : Progress s s₁ conn conn := ⟨hkept, hflow ▸ Transfer.refl _ _, hopen⟩
      exact hp.await h₁ fun s' conn' r' hp' h' => readLoop_accounts hp' h'

/-! ### What a call leaves of a completed stream -/

/-- A stream that was completed stays so, for the same reason, and its credit stays
returned. -/
structure Onward (s s' : ReceiveStream) : Prop where
  sound : Sound s'
  completed : s'.completed = s.completed
  known : s.finalOffset ≠ maxByteCount → s'.finalOffset ≠ maxByteCount
  why : s.completed = true → s.cancelledLocally = true ∨ s.errorRead = true →
    s'.cancelledLocally = true ∨ s'.errorRead = true
  read : s.completed = true → s.finalOffset ≠ maxByteCount → s.bytesRead = s.highestReceived →
    s'.bytesRead = s'.highestReceived

theorem Onward.trans {s'' : ReceiveStream} (h : Onward s s') (h' : Onward s' s'') :
    Onward s s'' where
  sound := h'.sound
  completed := h'.completed.trans h.completed
  known hfinal := h'.known (h.known hfinal)
  why hc hwhy := h'.why (h.completed.trans hc) (h.why hc hwhy)
  read hc hfinal hread := h'.read (h.completed.trans hc) (h.known hfinal) (h.read hc hfinal hread)

theorem Onward.of_eq (sd : Sound s') (hcompleted : s'.completed = s.completed)
    (hfinal : s'.finalOffset = s.finalOffset)
    (hlocal : s.cancelledLocally = true → s'.cancelledLocally = true)
    (herr : s.errorRead = true → s'.errorRead = true)
    (hread : s'.bytesRead = s.bytesRead) (hhighest : s'.highestReceived = s.highestReceived) :
    Onward s s' :=
  ⟨sd, hcompleted, fun h => hfinal ▸ h, fun _ h => h.imp hlocal herr, fun _ _ h => by
    rw [hread, hhighest, h]⟩

theorem Onward.of_read (sd : Sound s') (hkept : Kept s s')
    (hdone : s.completed = true → s'.flowController = s.flowController ∧
      (s.errorRead = true → s'.errorRead = true)) : Onward s s' where
  sound := sd
  completed := hkept.completed
  known h := hkept.finalOffset ▸ h
  why hc h := h.imp (fun h => hkept.locally.trans h) (hdone hc).2
  read hc _ h := by
    rw [bytesRead, highestReceived, (hdone hc).1]
    exact h

/-! ### Frames -/

variable {u : StreamFlowController.Updated} {offset finalOffset : Nat} {final : Bool}

/-- The flow controller moves on, but not once it knows the final offset. -/
theorem Sound.moved (sd : Sound s) {fc : StreamFlowController}
    (hread : fc.base.bytesRead = s.bytesRead) (hle : s.highestReceived ≤ fc.base.highestReceived)
    (hbound : fc.base.highestReceived ≤ maxByteCount)
    (hknown : s.flowController.receivedFinalOffset = true →
      fc.receivedFinalOffset = true ∧ fc.base.highestReceived = s.highestReceived)
    (hsame : s.finalOffset ≠ maxByteCount → finalOffset = s.finalOffset)
    (hfinal : finalOffset ≠ maxByteCount →
      fc.receivedFinalOffset = true ∧ fc.base.highestReceived = finalOffset)
    (hlast : s.finalOffset ≤ s.frameQueue.readPos → finalOffset ≤ s.frameQueue.readPos) :
    Onward s { s with flowController := fc, finalOffset := finalOffset } := by
  have hall : s.bytesRead = s.highestReceived → s.flowController.receivedFinalOffset = true →
      fc.base.bytesRead = fc.base.highestReceived := fun hall hrecv =>
    hread.trans (hall.trans (hknown hrecv).2.symm)
  refine ⟨⟨sd.queued, fun x hx => (sd.arrived x hx).trans_le hle, sd.readPos.trans hle, hbound, ?_,
    hfinal, fun h => hlast (sd.last h), ?_, sd.error⟩, rfl, fun h => hsame h ▸ h, fun _ h => h, ?_⟩
  · refine sd.counted.imp (fun hcounted => ?_) fun ⟨h, hrecv, hwho⟩ =>
      ⟨hall h hrecv, (hknown hrecv).1, hwho⟩
    show fc.base.bytesRead + s.unread = s.frameQueue.readPos
    rw [hread]
    exact hcounted
  · intro hremote
    obtain ⟨h, hrecv⟩ := sd.remote hremote
    exact ⟨hall h hrecv, (hknown hrecv).1⟩
  · intro _ hfinal h
    exact hall h (sd.final hfinal).1

/-- An offset arrives that accuses nobody, and it may be the final one. -/
theorem Sound.received (sd : Sound s) (hr : Received s.flowController conn offset final u)
    (hmax : offset ≤ maxByteCount)
    (hfinal : finalOffset = s.finalOffset ∨ u.err = none ∧ final = true ∧ finalOffset = offset) :
    Onward s { s with flowController := u.stream, finalOffset := finalOffset } := by
  have hbound : u.stream.base.highestReceived ≤ maxByteCount :=
    hr.upper.trans (max_le sd.bound (Int.ofNat_le.mpr hmax))
  -- A final offset that is known does not change.
  have hsame : s.finalOffset ≠ maxByteCount → finalOffset = s.finalOffset := by
    intro hknown
    rcases hfinal with h | ⟨hok, hset, h⟩
    · exact h
    · obtain ⟨hrecv, heq⟩ := sd.final hknown
      have h₁ := (hr.known hrecv).2
      have h₂ := ((hr.accepted hok).2 hset).2
      have heq : s.flowController.base.highestReceived = s.finalOffset := heq
      omega
  refine sd.moved (by rw [hr.streamRest]) hr.le hbound hr.known hsame ?_ ?_
  · intro hknown
    rcases hfinal with h | ⟨hok, hset, h⟩
    · obtain ⟨hrecv, heq⟩ := sd.final (h ▸ hknown)
      exact ⟨(hr.known hrecv).1, (hr.known hrecv).2.trans (heq.trans (congrArg _ h.symm))⟩
    · obtain ⟨hrecv, heq⟩ := (hr.accepted hok).2 hset
      exact ⟨hrecv, heq.trans (congrArg _ h.symm)⟩
  · intro hlast
    by_cases hknown : s.finalOffset = maxByteCount
    · -- Everything up to the largest offset was read: the final offset is no larger.
      rcases hfinal with h | ⟨hok, hset, h⟩
      · rw [h]
        exact hlast
      · omega
    · rw [hsame hknown]
      exact hlast

theorem finalOffsetAfter_cases (s : ReceiveStream) (frame : ParsedStreamFrame) :
    s.finalOffsetAfter frame = s.finalOffset ∨
      frame.fin = true ∧ s.finalOffsetAfter frame = frame.offset + frame.data.length := by
  rw [finalOffsetAfter]
  split_ifs with hfin
  · exact .inr ⟨hfin, rfl⟩
  · exact .inl rfl

/-- What a frame leaves alone. -/
structure Asleep (s s' : ReceiveStream) : Prop where
  errorRead : s'.errorRead = s.errorRead
  currentFrame : s'.currentFrame = s.currentFrame

/-- **A STREAM frame** that accuses nobody. -/
theorem Sound.streamFrame (sd : Sound s) {frame : ParsedStreamFrame}
    (h : s.handleStreamFrameImpl conn frame = .ok (s', conn', err)) (hok : ¬ Accuses err) :
    Onward s s' ∧ Transfer s.flowController s'.flowController conn conn' ∧ Asleep s s' := by
  obtain ⟨u, hu, rfl, rfl, hcases⟩ := handleStreamFrameImpl_cases h
  have hr : Received s.flowController conn
      (frame.offset + frame.data.length : Nat) frame.fin u := by
    rw [hu]
    exact StreamFlowController.received_updateHighestReceived
  have hmoved := Transfer.received hr hok
  have hafter : u.err = none → s.finalOffsetAfter frame = s.finalOffset ∨ u.err = none ∧
      frame.fin = true ∧ s.finalOffsetAfter frame = frame.offset + frame.data.length := fun h =>
    (s.finalOffsetAfter_cases frame).imp id fun hfin => ⟨h, hfin⟩
  rcases hcases with ⟨-, rfl⟩ | ⟨hno, -, rfl⟩ | ⟨hno, -, queue, hpush, rfl⟩
  · exact ⟨sd.received hr frame.within (.inl rfl), hmoved, rfl, rfl⟩
  · exact ⟨sd.received hr frame.within (hafter hno), hmoved, rfl, rfl⟩
  · obtain ⟨sd', hcompleted, hknown, hwhy, hread⟩ := sd.received hr frame.within (hafter hno)
    have hend : ((frame.offset + frame.data.length : Nat) : Int) ≤
        u.stream.base.highestReceived := by
      rw [(hr.accepted hno).1]
      exact le_max_right _ _
    have hgrows := FrameSorter.push_ok sd'.queued hpush
    have hpos : queue.readPos = s.frameQueue.readPos := hgrows.readPos
    refine ⟨⟨⟨hgrows.shape, fun x hx => ?_, ?_, sd'.bound, ?_, sd'.final, ?_,
      sd'.remote, sd'.error⟩,
      hcompleted, hknown, hwhy, hread⟩, hmoved, rfl, rfl⟩
    · rcases (hgrows.received x).mp hx with hx | hx
      · exact sd'.arrived x hx
      · exact (Int.ofNat_lt.mpr hx.2).trans_le hend
    · show (queue.readPos : Int) ≤ u.stream.base.highestReceived
      rw [hpos]
      exact sd'.readPos
    · rcases sd'.counted with hcounted | habandoned
      · refine .inl ?_
        show u.stream.base.bytesRead + s.unread = queue.readPos
        rw [hpos]
        exact hcounted
      · exact .inr habandoned
    · intro hlast
      show s.finalOffsetAfter frame ≤ queue.readPos
      rw [hpos]
      exact sd'.last hlast

/-- The credit is returned once the final offset is known. -/
theorem Sound.abandon (sd : Sound s) (conn : ConnectionFlowController) (remote : Bool)
    (hknown : s.flowController.receivedFinalOffset = true)
    (hremote : s.cancelledRemotely = true → remote = true)
    (hwho : remote = true ∨ s.cancelledLocally = true ∨ s.bytesRead = s.highestReceived) :
    Onward s { s with
      flowController := (s.flowController.abandon conn).1
      cancelledRemotely := remote } := by
  refine ⟨{ sd with counted := ?_, remote := fun _ => ⟨rfl, hknown⟩, error := ?_ }, rfl,
    fun h => h, fun _ h => h, fun _ _ _ => rfl⟩
  · rcases hwho with hremote | hlocal | hread
    · exact .inr ⟨rfl, hknown, .inl hremote⟩
    · exact .inr ⟨rfl, hknown, .inr hlocal⟩
    · refine sd.counted.imp (fun hcounted => ?_) fun h => ⟨rfl, hknown, h.2.2.imp hremote id⟩
      show s.highestReceived + s.unread = s.frameQueue.readPos
      rw [← hread]
      exact hcounted
  · intro herr
    exact (sd.error herr).imp hremote id

/-- **A RESET_STREAM frame** that accuses nobody: after it, a stream that somebody has
given up has returned its credit. -/
theorem Sound.resetStreamFrame (sd : Sound s) {frame : ResetStreamFrame}
    (h : s.handleResetStreamFrameImpl conn frame = (s', conn', err)) (hok : ¬ Accuses err) :
    Onward s s' ∧ Transfer s.flowController s'.flowController conn conn' ∧ Asleep s s' ∧
      (s'.finalOffset = s.finalOffset ∧ s'.cancelledLocally = s.cancelledLocally ∨
        s'.bytesRead = s'.highestReceived) := by
  rw [handleResetStreamFrameImpl] at h
  split at h
  · cases h
    exact ⟨.of_eq sd rfl rfl id id rfl rfl, .refl _ _, ⟨rfl, rfl⟩, .inl ⟨rfl, rfl⟩⟩
  · have hr : Received s.flowController conn frame.finalSize true
        (s.flowController.updateHighestReceived conn frame.finalSize true) :=
      StreamFlowController.received_updateHighestReceived
    revert h hr
    generalize s.flowController.updateHighestReceived conn frame.finalSize true = u
    intro h hr
    cases herr : u.err with
    | some e =>
      simp only [herr, isSome_some, if_true] at h
      cases h
      exact ⟨sd.received hr frame.within (.inl rfl), .received hr (herr ▸ hok), ⟨rfl, rfl⟩,
        .inl ⟨rfl, rfl⟩⟩
    | none =>
      have honward := sd.received hr frame.within (.inr ⟨herr, rfl, rfl⟩)
      have hmoved := Transfer.received hr (herr ▸ not_accuses_none)
      have hknown := ((hr.accepted herr).2 rfl).1
      simp only [herr, isSome_none, false_eq_true, if_false] at h
      by_cases hremote : s.cancelledRemotely = true
      · rw [if_pos hremote] at h
        cases h
        exact ⟨honward, hmoved, ⟨rfl, rfl⟩, .inr (honward.sound.remote hremote).1⟩
      · rw [if_neg hremote] at h
        have hback : Transfer u.stream (u.stream.abandon u.conn).1 u.conn
            (u.stream.abandon u.conn).2 := .abandon honward.sound.bytesRead_le
        by_cases hlocal : s.cancelledLocally = true
        · rw [if_pos hlocal] at h
          cases h
          have honward' := honward.sound.abandon u.conn s.cancelledRemotely hknown id
            (.inr (.inl hlocal))
          exact ⟨honward.trans honward', hmoved.trans hback, ⟨rfl, rfl⟩, .inr rfl⟩
        · rw [if_neg hlocal] at h
          cases h
          have honward' := honward.sound.abandon u.conn true hknown (fun _ => rfl) (.inl rfl)
          exact ⟨honward.trans ⟨honward'.sound.elsewhere, rfl, honward'.known,
            honward'.why, honward'.read⟩,
            hmoved.trans hback, ⟨rfl, rfl⟩, .inr rfl⟩

/-- **`CancelRead`** moves nothing. -/
theorem Sound.cancelRead (sd : Sound s) (code : Nat) : Onward s (s.cancelReadImpl code) ∧
    (s.cancelReadImpl code).flowController = s.flowController ∧
    Asleep s (s.cancelReadImpl code) := by
  have sd' : Sound { s with cancelledLocally := true } :=
    ⟨sd.queued, sd.arrived, sd.readPos, sd.bound,
      sd.counted.imp id fun h => ⟨h.1, h.2.1, .inr rfl⟩, sd.final, sd.last, sd.remote,
      fun h => (sd.error h).imp id fun _ => .inl rfl⟩
  rw [cancelReadImpl]
  split
  · exact ⟨.of_eq sd rfl rfl id id rfl rfl, rfl, rfl, rfl⟩
  · split
    · exact ⟨.of_eq sd rfl rfl id id rfl rfl, rfl, rfl, rfl⟩
    · dsimp only
      split
      · exact ⟨.of_eq sd' rfl rfl (fun _ => rfl) id rfl rfl, rfl, rfl, rfl⟩
      · exact ⟨.of_eq sd'.elsewhere rfl rfl (fun _ => rfl) id rfl rfl, rfl, rfl, rfl⟩

/-- A window update moves no counter. -/
theorem Sound.widened (sd : Sound s) (F : FloatOps) (conn : ConnectionFlowController) (t : Tuning) :
    Onward s { s with flowController := (s.flowController.getWindowUpdate F conn t).1 } := by
  obtain ⟨hwidens, -, hknown, -⟩ := s.flowController.widens_getWindowUpdate F conn t
  revert hwidens hknown
  generalize (s.flowController.getWindowUpdate F conn t).1 = fc
  intro hwidens hknown
  have hhighest : fc.base.highestReceived = s.highestReceived := by rw [hwidens.rest]
  refine sd.moved (by rw [hwidens.rest]) hhighest.ge (hhighest.le.trans sd.bound)
    (fun h => ⟨hknown.trans h, hhighest⟩) (fun _ => rfl) (fun hfinal => ?_) id
  exact ⟨hknown.trans (sd.final hfinal).1, hhighest.trans (sd.final hfinal).2⟩

/-- When a stream is newly completed. -/
theorem isNewlyCompleted_cases (s : ReceiveStream) :
    (s.isNewlyCompleted = (s, false) ∧ (s.finalOffset ≠ maxByteCount →
      s.cancelledLocally = true → s.completed = true)) ∨
    (s.isNewlyCompleted = ({ s with completed := true }, true) ∧ s.completed = false ∧
      s.finalOffset ≠ maxByteCount ∧ (s.cancelledLocally = true ∨ s.errorRead = true)) := by
  rw [isNewlyCompleted]
  split
  · rename_i hcompleted
    exact .inl ⟨rfl, fun _ _ => hcompleted⟩
  · rename_i hcompleted
    have hopen := eq_false_iff.mpr hcompleted
    split
    · rename_i hunknown
      exact .inl ⟨rfl, fun h => absurd hunknown h⟩
    · rename_i hknown
      split
      · rename_i hlocal
        exact .inr ⟨rfl, hopen, hknown, .inl hlocal⟩
      · rename_i hlocal
        split_ifs with herr
        · exact .inr ⟨rfl, hopen, hknown, .inr herr⟩
        · exact .inl ⟨rfl, fun _ h => absurd h hlocal⟩

end ReceiveStream

/-! ## The calls -/

namespace ReadEnd

open ReceiveStream (Onward Sound Outcome Reading ReadResult)

variable {F : FloatOps} {e e' : ReadEnd} {s : ReceiveStream} {conn conn' : ConnectionFlowController}

/-- What holds of a stream before the end of a call looks whether it is completed. -/
structure Books (e : ReadEnd) : Prop where
  sound : e.stream.Sound
  done : e.stream.completed = true → e.stream.finalOffset ≠ maxByteCount ∧
    (e.stream.cancelledLocally = true ∨ e.stream.errorRead = true)
  pending : e.abandoning = true → e.stream.completed = true
  reported : e.reported = true →
    e.stream.completed = true ∧ e.stream.bytesRead = e.stream.highestReceived
  asleep : e.reading ≠ none → e.stream.errorRead = false ∧ e.stream.currentFrame = none

/-- What holds between calls. -/
structure Accounted (e : ReadEnd) : Prop extends Books e where
  settled : e.stream.finalOffset ≠ maxByteCount → e.stream.cancelledLocally = true →
    e.stream.completed = true

theorem accounted_new (fc : StreamFlowController) (hread : fc.base.bytesRead = 0)
    (hhighest : fc.base.highestReceived = 0) : Accounted (new fc) where
  sound := by
    refine ⟨FrameSorter.shape_new, fun x hx => absurd hx FrameSorter.not_received_new, hhighest.ge,
      ?_, .inl ?_, fun h => absurd rfl h,
      fun h => absurd h false_ne_true, fun h => absurd h false_ne_true,
      fun h => absurd h false_ne_true⟩
    · show fc.base.highestReceived ≤ maxByteCount
      rw [hhighest]
      exact Int.natCast_nonneg _
    · show fc.base.bytesRead + (0 - 0 : Nat) = (0 : Nat)
      rw [hread]
      rfl
  done h := absurd h false_ne_true
  pending h := absurd h false_ne_true
  reported h := absurd h false_ne_true
  asleep h := absurd rfl h
  settled h := absurd rfl h

/-- A call that goes onward keeps the books. -/
theorem Books.onward (b : Books e) (honward : Onward e.stream s) {reading : Option Reading}
    {results : List ReadResult} {errors : List TransportError} {granted : List Int}
    (hasleep : reading ≠ none → s.errorRead = false ∧ s.currentFrame = none) :
    Books { e with
      stream := s, reading := reading, results := results, errors :=
      errors, granted := granted } where
  sound := honward.sound
  done h := by
    have hc : e.stream.completed = true := honward.completed.symm.trans h
    exact ⟨honward.known (b.done hc).1, honward.why hc (b.done hc).2⟩
  pending h := honward.completed.trans (b.pending h)
  reported h := by
    obtain ⟨hc, hread⟩ := b.reported h
    exact ⟨honward.completed.trans hc, honward.read hc (b.done hc).1 hread⟩
  asleep := hasleep

/-- A call that does not touch what a sleeping `Read` looks at. -/
theorem Books.still (b : Books e) (honward : Onward e.stream s)
    (hsame : ReceiveStream.Asleep e.stream s)
    {errors : List TransportError} {granted : List Int} :
    Books { e with stream := s, errors := errors, granted := granted } :=
  b.onward honward fun h => ⟨hsame.errorRead.trans (b.asleep h).1,
    hsame.currentFrame.trans (b.asleep h).2⟩

/-- The end of a call that abandons a completed stream afterwards. -/
theorem Books.complete (b : Books e) : Accounted e.complete := by
  rw [ReadEnd.complete]
  rcases e.stream.isNewlyCompleted_cases with ⟨heq, hsettled⟩ | ⟨heq, hopen, hknown, hwhy⟩
  · rw [heq]
    exact ⟨{ b with pending := fun h => b.pending ((Bool.or_false _).symm.trans h) }, hsettled⟩
  · rw [heq]
    exact ⟨⟨b.sound.elsewhere, fun _ => ⟨hknown, hwhy⟩, fun _ => rfl,
      fun h => ⟨rfl, (b.reported h).2⟩, b.asleep⟩, fun _ _ => rfl⟩

/-- The end of a call that reports a completed stream at once: its credit must have been
returned. -/
theorem Books.report (b : Books e) (hread : e.stream.completed = false →
      e.stream.finalOffset ≠ maxByteCount →
      e.stream.cancelledLocally = true ∨ e.stream.errorRead = true →
      e.stream.bytesRead = e.stream.highestReceived) : Accounted e.report := by
  rw [ReadEnd.report]
  rcases e.stream.isNewlyCompleted_cases with ⟨heq, hsettled⟩ | ⟨heq, hopen, hknown, hwhy⟩
  · rw [heq]
    exact ⟨{ b with reported := fun h => b.reported ((Bool.or_false _).symm.trans h) }, hsettled⟩
  · rw [heq]
    exact ⟨⟨b.sound.elsewhere, fun _ => ⟨hknown, hwhy⟩, fun _ => rfl,
      fun _ => ⟨rfl, hread hopen hknown hwhy⟩, b.asleep⟩, fun _ _ => rfl⟩

/-- What a call does to the two flow controllers: it moves their counters together, or it
widens the windows and logs the result. -/
def Effect (F : FloatOps) (e e' : ReadEnd) (conn conn' : ConnectionFlowController) : Prop :=
  (Transfer e.stream.flowController e'.stream.flowController conn conn' ∧ e'.granted = e.granted) ∨
    ∃ t offset, e.stream.flowController.getWindowUpdate F conn t =
      (e'.stream.flowController, conn', offset) ∧ e'.granted = e.granted ++ [offset]

theorem report_flowController (e : ReadEnd) :
    e.report.stream.flowController = e.stream.flowController := by
  rw [report]
  rcases e.stream.isNewlyCompleted_cases with ⟨heq, -⟩ | ⟨heq, -⟩ <;> rw [heq]

theorem complete_flowController (e : ReadEnd) :
    e.complete.stream.flowController = e.stream.flowController := by
  rw [complete]
  rcases e.stream.isNewlyCompleted_cases with ⟨heq, -⟩ | ⟨heq, -⟩ <;> rw [heq]

/-- **`Read`** keeps the books, whether it returns or goes to sleep. -/
theorem Accounted.settle (ha : Accounted e) {o : Outcome} (ho : o.Accounts e.stream conn)
    (h : e.settle o = some (e', conn')) :
    Accounted e' ∧ Transfer e.stream.flowController e'.stream.flowController conn conn' ∧
      e'.granted = e.granted := by
  cases o with
  | panicked => cases h
  | waiting s conn₁ r =>
    obtain ⟨sd, hkept, hmoved, hopen, hasleep⟩ := ho
    cases h
    have honward := Onward.of_read sd hkept fun hc => by
      rw [hopen] at hc
      cases hc
    refine ⟨⟨ha.toBooks.onward honward fun _ => hasleep, fun hknown hlocal => ?_⟩, hmoved, rfl⟩
    exact hkept.completed.trans (ha.settled (hkept.finalOffset ▸ hknown)
      (hkept.locally.symm.trans hlocal))
  | returned s conn₁ due r =>
    obtain ⟨sd, hkept, hmoved, hdone⟩ := ho
    cases h
    refine ⟨(ha.toBooks.onward (.of_read sd hkept hdone) fun h => absurd rfl h).report ?_, ?_, rfl⟩
    · intro hopen hknown hwhy
      have hopen : s.completed = false := hopen
      -- A stream that was cancelled would have been completed before.
      have hlocal : s.cancelledLocally ≠ true := fun hlocal => by
        have hc := ha.settled (hkept.finalOffset ▸ hknown) (hkept.locally.symm.trans hlocal)
        rw [hkept.completed.trans hc] at hopen
        cases hopen
      exact sd.read_all hknown (hwhy.resolve_left hlocal) (eq_false_iff.mpr hlocal)
    · rw [report_flowController]
      exact hmoved

/-- No error accuses the peer of exceeding a window. -/
def Unaccused (e : ReadEnd) : Prop := ∀ err ∈ e.errors, err.errorCode ≠ .flowControlError

theorem Unaccused.not_accuses {errs : List TransportError}
    (h : ∀ err' ∈ errs ++ err.toList, err'.errorCode ≠ .flowControlError) : ¬ Accuses err :=
  fun ⟨err', hmem, hcode⟩ => h err' (mem_append_right _ (mem_toList.mpr hmem)) hcode

/-- **One call** keeps the books, and does to the flow controllers what `Effect` says. -/
theorem Accounted.call (ha : Accounted e) {c : Call} (h : e.call F conn c = some (e', conn'))
    (hok : Unaccused e') : Accounted e' ∧ Effect F e e' conn conn' := by
  cases c with
  | streamFrame frame =>
    obtain ⟨⟨s, conn₁, err⟩, hf, heq⟩ := map_eq_some_iff.mp h
    cases heq
    obtain ⟨honward, hmoved, hsame⟩ := ha.sound.streamFrame (Except.toOption_eq_some_iff.mp hf)
      (Unaccused.not_accuses hok)
    refine ⟨(ha.toBooks.still honward hsame).complete, .inl ⟨?_, rfl⟩⟩
    rw [complete_flowController]
    exact hmoved
  | resetStreamFrame frame =>
    simp only [ReadEnd.call] at h
    rcases hreset : e.stream.handleResetStreamFrameImpl conn frame with ⟨s, conn₁, err⟩
    rw [hreset] at h
    cases h
    obtain ⟨honward, hmoved, hsame, hgiven⟩ :=
      ha.sound.resetStreamFrame hreset (Unaccused.not_accuses hok)
    refine ⟨(ha.toBooks.still honward hsame).report ?_, .inl ⟨?_, rfl⟩⟩
    · intro hopen hknown hwhy
      rcases hgiven with ⟨hfinal, hlocal⟩ | hread
      · have hopen : s.completed = false := hopen
        have hnot : s.cancelledLocally ≠ true := fun h => by
          have hc := ha.settled (hfinal ▸ hknown) (hlocal.symm.trans h)
          rw [honward.completed.trans hc] at hopen
          cases hopen
        exact honward.sound.read_all hknown (hwhy.resolve_left hnot) (eq_false_iff.mpr hnot)
      · exact hread
    · rw [report_flowController]
      exact hmoved
  | read len =>
    simp only [ReadEnd.call] at h
    split_ifs at h
    obtain ⟨ha', hmoved⟩ := ha.settle
      (ReceiveStream.readImpl_accounts ha.sound (fun hc => (ha.done hc).2) len) h
    exact ⟨ha', .inl hmoved⟩
  | wake =>
    obtain ⟨r, hreading, h⟩ := bind_eq_some_iff.mp h
    split_ifs at h
    have hasleep := ha.asleep (ne_none_iff_exists'.mpr ⟨r, hreading⟩)
    obtain ⟨ha', hmoved⟩ := ha.settle
      (ReceiveStream.wake_accounts ha.sound (fun hc => (ha.done hc).2) hasleep.1 hasleep.2) h
    exact ⟨ha', .inl hmoved⟩
  | cancelRead code =>
    cases h
    obtain ⟨honward, hflow, hsame⟩ := ha.sound.cancelRead code
    refine ⟨(ha.toBooks.still honward hsame).complete, .inl ⟨?_, rfl⟩⟩
    rw [complete_flowController]
    show Transfer _ (e.stream.cancelReadImpl code).flowController _ _
    rw [hflow]
    exact .refl _ _
  | abandon =>
    simp only [ReadEnd.call] at h
    split_ifs at h with hpending
    have hc := ha.pending hpending
    obtain ⟨hknown, hwhy⟩ := ha.done hc
    have hwho : e.stream.cancelledRemotely = true ∨ e.stream.cancelledLocally = true ∨
        e.stream.bytesRead = e.stream.highestReceived := by
      by_cases hlocal : e.stream.cancelledLocally = true
      · exact .inr (.inl hlocal)
      · exact .inr (.inr (ha.sound.read_all hknown (hwhy.resolve_left hlocal)
          (eq_false_iff.mpr hlocal)))
    have honward := ha.sound.abandon conn _ (ha.sound.final hknown).1 id hwho
    cases h
    have b : Books { e with stream := { e.stream with
        flowController := (e.stream.flowController.abandon conn).1 } } :=
      ha.toBooks.still honward ⟨rfl, rfl⟩
    exact ⟨⟨⟨b.sound, b.done, fun h => absurd h false_ne_true, fun _ => ⟨hc, rfl⟩, b.asleep⟩,
      fun _ _ => hc⟩, .inl ⟨.abandon ha.sound.bytesRead_le, rfl⟩⟩
  | closeForShutdown =>
    cases h
    have honward : Onward e.stream e.stream.closeForShutdown :=
      .of_eq ha.sound.elsewhere rfl rfl id id rfl rfl
    exact ⟨⟨ha.toBooks.still honward ⟨rfl, rfl⟩, ha.settled⟩, .inl ⟨.refl _ _, rfl⟩⟩
  | getControlFrame t =>
    simp only [ReadEnd.call, ReceiveStream.getControlFrame] at h
    split at h
    · cases h
      have honward : Onward e.stream { e.stream with queuedStopSending := false } :=
        .of_eq ha.sound.elsewhere rfl rfl id id rfl rfl
      exact ⟨⟨ha.toBooks.still honward ⟨rfl, rfl⟩, ha.settled⟩, .inl ⟨.refl _ _, append_nil _⟩⟩
    · split at h
      · cases h
        have honward := ha.sound.widened F conn t
        have honward' : Onward e.stream { e.stream with
            queuedMaxStreamData := false
            flowController := (e.stream.flowController.getWindowUpdate F conn t).1 } :=
          ⟨honward.sound.elsewhere, rfl, honward.known, honward.why, honward.read⟩
        exact ⟨⟨ha.toBooks.still honward' ⟨rfl, rfl⟩, ha.settled⟩, .inr ⟨t, _, rfl, rfl⟩⟩
      · cases h
        exact ⟨⟨ha.toBooks.still (.of_eq ha.sound rfl rfl id id rfl rfl) ⟨rfl, rfl⟩, ha.settled⟩,
          .inl ⟨.refl _ _, append_nil _⟩⟩
  | getWindowUpdate t =>
    cases h
    exact ⟨⟨ha.toBooks.still (ha.sound.widened F conn t) ⟨rfl, rfl⟩, ha.settled⟩,
      .inr ⟨t, _, rfl, rfl⟩⟩

end ReadEnd

end UQuic
