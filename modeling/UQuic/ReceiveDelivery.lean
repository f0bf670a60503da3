/-
# `UQuic.ReceiveDelivery` — a receive stream delivers the stream

Let `S` be the bytes of a stream, shorter than `MaxByteCount`.  The peer cuts
frames from it in any way, sets FIN only where `S` ends, and no frame is refused;
the application reads with buffers of any length.

## What is proved

For any interleaving (`read_delivers`), with `got` what all `Read`s returned so far:

    got is a prefix of S, and the flow controller was credited |got| bytes
    EOF is returned only if got = S and the final offset is known
    got = S and the final offset is known  →  the next `Read` with room for a byte,
                                              or the one that sleeps, returns EOF
    no other error, and no sleeping `Read` misses what it waits for

A `Read` may return the last byte without EOF (`read_lastByte_without_eof`): whether
a frame is the last one is decided when it is taken from the queue, and the FIN may
come later.

## How

`Delivers` says where `got` ends: what is left of the current frame follows it, and
the sorter's read position lies behind that.  Its rules for taking a frame and for
copying from it give `readLoop_delivers` by induction on the rounds; there are rounds
enough because each one takes a frame or copies a byte.
-/
import UQuic.ReceiveStream
import UQuic.Reassembly

namespace UQuic.ReceiveStream

open List Bool
open FlowControl (FloatOps ConnectionFlowController)
open FrameSorter (slice)

variable {F : FloatOps} {S : Nat → UInt8} {N : Nat} {pushed pushed' : Nat → Prop}
  {got : List UInt8} {s s' : ReceiveStream} {conn conn' : ConnectionFlowController} {r r' : Reading}

/-! ## The invariant of the stream -/

/-- Nobody has given up. -/
def Alive (s : ReceiveStream) : Prop :=
  s.cancelledRemotely = false ∧ s.cancelledLocally = false ∧ s.closeForShutdownErr = false

/-- The bytes `got` were delivered: the rest of the current frame comes next, then
what the sorter has at its read position. -/
structure Delivers (S : Nat → UInt8) (N : Nat) (pushed : Nat → Prop) (got : List UInt8)
    (s : ReceiveStream) : Prop where
  queue : FrameSorter.Inv S pushed s.frameQueue
  bound : ∀ x, pushed x → x < N
  pos : s.currentFrame ≠ none → s.readPosInFrame ≤ s.currentLen
  read : s.frameQueue.readPos = got.length + (s.currentLen - s.readPosInFrame)
  start : got = slice S 0 got.length
  rest : (s.currentFrame.getD []).drop s.readPosInFrame =
    slice S got.length (s.currentLen - s.readPosInFrame)
  final : s.finalOffset = maxByteCount ∨ s.finalOffset = N
  last : s.currentFrameIsLast = true → s.finalOffset = N ∧ s.frameQueue.readPos = N
  credited : s.credited.sum = got.length
  alive : s.Alive

/-- The sorter never reads past the end. -/
theorem Delivers.readPos_le (d : Delivers S N pushed got s) : s.frameQueue.readPos ≤ N := by
  by_contra hlt
  have hpos : N < s.frameQueue.readPos := Nat.not_le.mp hlt
  have hin : pushed N := (d.queue.pushed N).mpr (d.queue.shape.received_of_lt hpos)
  exact Nat.lt_irrefl N (d.bound N hin)

theorem Delivers.length_le (d : Delivers S N pushed got s) : got.length ≤ N := by
  have hread := d.read
  have hle := d.readPos_le
  omega

/-- The end of the stream is reached when everything was delivered. -/
theorem Delivers.exhausted (d : Delivers S N pushed got s) (hall : got.length = N) :
    s.currentLen ≤ s.readPosInFrame ∧ s.frameQueue.readPos = N := by
  have hread := d.read
  have hle := d.readPos_le
  omega

/-! ## Taking a frame -/

theorem inv_done {queue : FrameSorter} (inv : FrameSorter.Inv S pushed queue) (done : List Nat) :
    FrameSorter.Inv S pushed { queue with done := done } :=
  (inv.shape.done done).inv inv.data inv.pushed

/-- `s'` is `s` after it took a frame from the queue, or found none. -/
structure Dequeued (S : Nat → UInt8) (N : Nat) (pushed : Nat → Prop) (got : List UInt8)
    (s s' : ReceiveStream) : Prop where
  delivers : Delivers S N pushed got s'
  fresh : s'.readPosInFrame = 0
  last : s'.currentFrameIsLast = decide (s.finalOffset ≤ s'.frameQueue.readPos)
  found : (s'.currentFrame = none ∧ ¬ pushed s'.frameQueue.readPos ∧
      s'.frameQueue.queue = s.frameQueue.queue) ∨
    (∃ data, s'.currentFrame = some data ∧ data ≠ [] ∧
      s'.frameQueue.queue.keys.length < s.frameQueue.queue.keys.length)
  rest : s'.finalOffset = s.finalOffset ∧ s'.errorRead = s.errorRead ∧
    s'.completed = s.completed ∧ s'.readChan = s.readChan

theorem Delivers.dequeue (d : Delivers S N pushed got s) (hN : N < maxByteCount)
    (hdone : s.currentLen ≤ s.readPosInFrame) :
    ∃ s', s.dequeueNextFrame = .ok s' ∧ Dequeued S N pushed got s s' := by
  have hread : s.frameQueue.readPos = got.length := by
    have := d.read
    omega
  have hfinal := d.final
  -- The frame is the last one if the final offset is known and not beyond it.
  have hlast : ∀ p ≤ N, decide (s.finalOffset ≤ p) = true → s.finalOffset = N ∧ p = N := by
    intro p hp h
    have h := of_decide_eq_true h
    omega
  rw [dequeueNextFrame]
  rcases FrameSorter.pop_cases (inv_done d.queue
      (s.frameQueue.done ++ s.currentFrameDone.toList)) with
    ⟨hpop, hnot⟩ | ⟨queue', data, cb, hpop, -, hne, hdata, hpos', hkeys, hinv⟩
  · rw [hpop]
    have hle : got.length ≤ N := d.length_le
    refine ⟨_, rfl, ⟨⟨inv_done d.queue _, d.bound, fun _ => Nat.le_refl 0, ?_, d.start,
      rfl, d.final, ?_,
      d.credited, d.alive⟩, rfl, rfl, .inl ⟨rfl, hnot, rfl⟩, rfl, rfl, rfl, rfl⟩⟩
    · exact hread
    · intro h
      have h : decide (s.finalOffset ≤ s.frameQueue.readPos) = true := h
      exact hlast _ (hread.le.trans hle) h
  · rw [hpop]
    have hdata : data = slice S s.frameQueue.readPos data.length := hdata
    have hpos' : queue'.readPos = s.frameQueue.readPos + data.length := hpos'
    let next : ReceiveStream := { s with
      frameQueue := queue'
      currentFrame := some data
      currentFrameDone := cb
      currentFrameIsLast := s.finalOffset ≤ s.frameQueue.readPos + data.length
      readPosInFrame := 0 }
    have hisLast : next.currentFrameIsLast = decide (s.finalOffset ≤ queue'.readPos) := by
      rw [hpos']
    have hnext : queue'.readPos = got.length + data.length := by rw [hpos', hread]
    rw [hread] at hdata
    have dnext : Delivers S N pushed got { next with currentFrameIsLast := false } :=
      ⟨hinv, d.bound, fun _ => Nat.zero_le _, hnext, d.start, hdata, d.final,
        fun h => absurd h false_ne_true, d.credited, d.alive⟩
    refine ⟨next, rfl, ⟨{ dnext with last := fun h => ?_ }, rfl, hisLast,
      .inr ⟨data, rfl, hne, ?_⟩, rfl, rfl, rfl, rfl⟩⟩
    · have hle : queue'.readPos ≤ N := dnext.readPos_le
      exact hlast _ hle (hisLast.symm.trans h)
    · show queue'.queue.keys.length < s.frameQueue.queue.keys.length
      have hkeys : queue'.queue.keys.length + 1 = s.frameQueue.queue.keys.length := hkeys
      omega

/-! ## Copying from it -/

theorem length_available : (s.available r).length =
    min (r.len - r.buf.length) (s.currentLen - s.readPosInFrame) := by
  rw [available, length_take, length_drop, currentLen]

/-- What is copied are the next bytes of the stream. -/
theorem Delivers.available_eq (d : Delivers S N pushed got s) :
    s.available r = slice S got.length (s.available r).length := by
  rw [length_available, available, d.rest, FrameSorter.take_slice]

/-- Copying moves bytes from the current frame to what was delivered. -/
theorem Delivers.copy (d : Delivers S N pushed got s) (F : FloatOps)
    (conn : ConnectionFlowController) (r : Reading) :
    Delivers S N pushed (got ++ s.available r) (s.copyData F conn r).1 := by
  have hlen := length_available (s := s) (r := r)
  have hread := d.read
  have hle : (s.available r).length ≤ s.currentLen - s.readPosInFrame := by
    rw [hlen]
    exact Nat.min_le_right _ _
  have hslice := d.available_eq (r := r)
  rw [copyData_eq F conn r d.alive.1]
  refine ⟨d.queue, d.bound, ?_, ?_, ?_, ?_, d.final, d.last, ?_, d.alive⟩
  · intro hf
    have hpos := d.pos hf
    show s.readPosInFrame + (s.available r).length ≤ s.currentLen
    omega
  · show s.frameQueue.readPos = (got ++ s.available r).length +
      (s.currentLen - (s.readPosInFrame + (s.available r).length))
    rw [length_append]
    omega
  · rw [length_append, ← FrameSorter.slice_append, Nat.zero_add, ← d.start, ← hslice]
  · show (s.currentFrame.getD []).drop (s.readPosInFrame + (s.available r).length) =
      slice S (got ++ s.available r).length
        (s.currentLen - (s.readPosInFrame + (s.available r).length))
    rw [← drop_drop, d.rest, FrameSorter.drop_slice, length_append, Nat.sub_sub]
  · show (s.credited ++ [(s.available r).length]).sum = (got ++ s.available r).length
    rw [sum_append, d.credited, length_append, sum_singleton]

/-! ## The loop -/

/-- What a `Read` with room for `len` bytes that has copied `buf` comes to. -/
def Outcome.Delivered (S : Nat → UInt8) (N : Nat) (pushed : Nat → Prop) (got : List UInt8)
    (len : Nat) (before : ReceiveStream) : Outcome → Prop
  | .returned s _ _ res =>
    Delivers S N pushed (got ++ res.data) s ∧ s.finalOffset = before.finalOffset ∧
      s.completed = before.completed ∧
      (res.err = none ∧ (len ≠ 0 → res.data ≠ []) ∧ s.errorRead = before.errorRead ∨
        res.err = some .eof ∧ (got ++ res.data).length = N ∧ s.finalOffset = N ∧ s.errorRead = true)
  | .waiting s _ r =>
    Delivers S N pushed got s ∧ s.finalOffset = before.finalOffset ∧
      s.completed = before.completed ∧ s.errorRead = before.errorRead ∧ r.buf = [] ∧
      r.len = len ∧ len ≠ 0 ∧ s.currentFrame = none ∧
      ¬ pushed s.frameQueue.readPos ∧ ¬ s.finalOffset ≤ s.frameQueue.readPos
  | .panicked => False

/-- A `Read` in progress, with nothing else changed since it began. -/
structure InRead (S : Nat → UInt8) (N : Nat) (pushed : Nat → Prop) (got : List UInt8) (len : Nat)
    (before s : ReceiveStream) (r : Reading) : Prop where
  delivers : Delivers S N pushed (got ++ r.buf) s
  finalOffset : s.finalOffset = before.finalOffset
  completed : s.completed = before.completed
  errorRead : s.errorRead = before.errorRead
  room : r.len = len
  fits : r.buf.length ≤ len

variable {len : Nat} {before : ReceiveStream}
  {next : ReceiveStream → ConnectionFlowController → Reading → Outcome}

theorem InRead.copy (h : InRead S N pushed got len before s r) (F : FloatOps)
    (conn : ConnectionFlowController) :
    InRead S N pushed got len before (s.copyData F conn r).1 (s.copyData F conn r).2.2 := by
  have d := h.delivers.copy F conn r
  have hlen := length_available (s := s) (r := r)
  have hbuf := h.fits
  rw [copyData_eq F conn r h.delivers.alive.1] at d ⊢
  refine { h with delivers := ?_, fits := ?_ }
  · rw [← append_assoc]
    exact d
  · rw [length_append, ← h.room]
    rw [← h.room] at hbuf
    omega

/-- The last byte was copied. -/
theorem Delivers.finish (d : Delivers S N pushed got s)
    (hdone : s.currentLen ≤ s.readPosInFrame) (done : List Nat) :
    Delivers S N pushed got { s with
      currentFrame := none
      frameQueue := { s.frameQueue with done := done }
      errorRead := true } := by
  have hread : s.frameQueue.readPos = got.length := by
    have := d.read
    omega
  have hz : (0 : Nat) - s.readPosInFrame = 0 := Nat.zero_sub _
  refine ⟨inv_done d.queue _, d.bound, fun h => absurd rfl h, ?_, d.start, ?_, d.final, d.last,
    d.credited, d.alive⟩
  · show s.frameQueue.readPos = got.length + (0 - s.readPosInFrame)
    rw [hz, hread, Nat.add_zero]
  · show ([] : List UInt8).drop s.readPosInFrame = slice S got.length (0 - s.readPosInFrame)
    rw [hz, drop_nil]
    rfl

/-- How much a `Read` can still do: bytes to copy and frames to take. -/
def left (s : ReceiveStream) (r : Reading) : Nat :=
  r.len - r.buf.length + s.frameQueue.queue.keys.length

/-- A round from the inner loop on, once a frame was looked for. -/
theorem InRead.await (h : InRead S N pushed got len before s r) (hroom : r.buf.length < len)
    (hno : s.currentFrame = none → r.buf = [] ∧ s.readPosInFrame = 0 ∧
      ¬ pushed s.frameQueue.readPos ∧
      s.currentFrameIsLast = decide (s.finalOffset ≤ s.frameQueue.readPos))
    (hsome : s.currentFrame ≠ none → s.readPosInFrame < s.currentLen)
    (hnext : ∀ s' conn' r', InRead S N pushed got len before s' r' → r'.buf ≠ [] →
      left s' r' < left s r → (next s' conn' r').Delivered S N pushed got len before) :
    (s.await F next conn r).Delivered S N pushed got len before := by
  obtain ⟨hremote, hlocal, hshutdown⟩ := h.delivers.alive
  have hlen := h.room
  rw [ReceiveStream.await, if_neg (by rw [hshutdown]; exact false_ne_true),
    if_neg (by rw [hremote, hlocal]; exact not_or.mpr ⟨false_ne_true, false_ne_true⟩)]
  split
  · rename_i hwait
    obtain ⟨hbuf, -, hpushed, hlast⟩ := hno hwait.1
    have d := h.delivers
    rw [hbuf, append_nil] at d
    rw [hwait.2] at hlast
    exact ⟨d, h.finalOffset, h.completed, h.errorRead, hbuf, hlen, Nat.ne_zero_of_lt hroom, hwait.1,
      hpushed, of_decide_eq_false hlast.symm⟩
  · rename_i hgo
    have hpos : s.readPosInFrame ≤ s.currentLen := by
      by_cases hf : s.currentFrame = none
      · rw [(hno hf).2.1]
        exact Nat.zero_le _
      · exact Nat.le_of_lt (hsome hf)
    rw [if_neg (by omega)]
    have h' := h.copy F conn
    have heq := copyData_eq F conn r hremote
    have hlength := length_available (s := s) (r := r)
    rcases hcopy : s.copyData F conn r with ⟨s', conn', r'⟩
    rw [hcopy] at h' heq
    have h' : InRead S N pushed got len before s' r' := h'
    have hbuf' : r'.buf = r.buf ++ s.available r := congrArg (fun x => x.2.2.buf) heq
    have hq : s'.frameQueue = s.frameQueue := congrArg (fun x => x.1.frameQueue) heq
    have hframe' : s'.currentFrame = s.currentFrame := congrArg (fun x => x.1.currentFrame) heq
    have hlast' : s'.currentFrameIsLast = s.currentFrameIsLast :=
      congrArg (fun x => x.1.currentFrameIsLast) heq
    have hpos' : s'.readPosInFrame = s.readPosInFrame + (s.available r).length :=
      congrArg (fun x => x.1.readPosInFrame) heq
    dsimp only
    rw [afterCopy]
    split_ifs with hend
    · -- The end of the stream: everything was delivered.
      obtain ⟨hN, hreadPos⟩ := h'.delivers.last hend.2
      have hread := h'.delivers.read
      have dend := h'.delivers.finish hend.1
        (s'.frameQueue.done ++ s'.currentFrameDone.toList)
      refine ⟨dend, h'.finalOffset, h'.completed, .inr ⟨rfl, ?_, hN, rfl⟩⟩
      show (got ++ r'.buf).length = N
      omega
    · have hf : s.currentFrame ≠ none := by
        intro hnil
        -- Without a frame the stream is at its end.
        have hcur : s'.currentLen = 0 := by rw [currentLen, hframe', hnil]; rfl
        refine hend ⟨by rw [hcur]; exact Nat.zero_le _, ?_⟩
        rw [hlast']
        by_contra hnot
        exact hgo ⟨hnil, eq_false_iff.mpr hnot⟩
      have hlt := hsome hf
      have havailable : 0 < (s.available r).length := by
        rw [hlength]
        omega
      have hlen' := h'.room
      refine hnext s' conn' r' h' ?_ ?_
      · intro hnil
        rw [hbuf'] at hnil
        rw [(append_eq_nil_iff.mp hnil).2] at havailable
        exact Nat.lt_irrefl 0 havailable
      · simp only [left, hq, hbuf', length_append]
        omega

theorem InRead.dequeued (h : InRead S N pushed got len before s r)
    (hd : Dequeued S N pushed (got ++ r.buf) s s') : InRead S N pushed got len before s' r :=
  ⟨hd.delivers, hd.rest.1.trans h.finalOffset, hd.rest.2.2.1.trans h.completed,
    hd.rest.2.1.trans h.errorRead, h.room, h.fits⟩

theorem Dequeued.left_le (hd : Dequeued S N pushed got s s') (r : Reading) :
    left s' r ≤ left s r := by
  rw [left, left]
  rcases hd.found with ⟨-, -, hq⟩ | ⟨data, -, -, hlt⟩
  · rw [hq]
  · omega

theorem Dequeued.nothing (hd : Dequeued S N pushed got s s') (hnil : s'.currentFrame = none) :
    ¬ pushed s'.frameQueue.readPos ∧
      s'.currentFrameIsLast = decide (s'.finalOffset ≤ s'.frameQueue.readPos) := by
  rcases hd.found with ⟨-, hnot, -⟩ | ⟨data, hdata, -⟩
  · rw [hd.rest.1]
    exact ⟨hnot, hd.last⟩
  · rw [hnil] at hdata
    cases hdata

theorem Dequeued.something (hd : Dequeued S N pushed got s s') (hf : s'.currentFrame ≠ none) :
    s'.readPosInFrame < s'.currentLen := by
  rcases hd.found with ⟨hnil, -⟩ | ⟨data, hdata, hne, -⟩
  · exact absurd hnil hf
  · rw [hd.fresh, currentLen, hdata]
    exact length_pos_iff.mpr hne

/-- **The read loop.**  With rounds enough it returns the next bytes of the stream, or
sleeps because there are none. -/
theorem readLoop_delivers (hN : N < maxByteCount) {fuel : Nat}
    (h : InRead S N pushed got len before s r) (hfuel : left s r < fuel)
    (hbuf : len = r.buf.length → len = 0 ∨ r.buf ≠ []) :
    (readLoop F fuel s conn r).Delivered S N pushed got len before := by
  induction fuel generalizing s conn r with
  | zero => exact absurd hfuel (Nat.not_lt_zero _)
  | succ fuel ih =>
    rw [readLoop, h.room]
    split
    · -- The buffer is full.
      rename_i hfull
      refine ⟨h.delivers, h.finalOffset, h.completed, .inl ⟨rfl, fun hne => ?_, h.errorRead⟩⟩
      exact (hbuf (Nat.le_antisymm hfull h.fits)).resolve_left hne
    · rename_i hroom
      have hroom : r.buf.length < len := Nat.not_le.mp hroom
      have hnext : ∀ s' conn' r', InRead S N pushed got len before s' r' → r'.buf ≠ [] →
          left s' r' < fuel → (readLoop F fuel s' conn' r').Delivered S N pushed got len before :=
        fun s' conn' r' h' hne hlt => ih h' hlt fun _ => .inr hne
      by_cases hdone : s.currentFrame = none ∨ s.currentLen ≤ s.readPosInFrame
      · have hdone' : s.currentLen ≤ s.readPosInFrame := by
          rcases hdone with hnil | hle
          · rw [currentLen, hnil]
            exact Nat.zero_le _
          · exact hle
        obtain ⟨s₁, hdequeue, hd⟩ := h.delivers.dequeue hN hdone'
        have h₁ := h.dequeued hd
        have hleft := hd.left_le r
        rw [if_pos hdone, hdequeue]
        dsimp only
        split
        · rename_i hempty
          exact ⟨h₁.delivers, h₁.finalOffset, h₁.completed, .inl ⟨by
            rw [h₁.delivers.alive.2.2]; rfl, fun _ => hempty.2, h₁.errorRead⟩⟩
        · rename_i hgo
          refine h₁.await hroom (fun hnil => ⟨?_, hd.fresh, hd.nothing hnil⟩) hd.something
            fun s' conn' r' h' hne hlt => hnext s' conn' r' h' hne (by omega)
          by_contra hne
          exact hgo ⟨hnil, hne⟩
      · obtain ⟨hf, hlt⟩ := not_or.mp hdone
        rw [if_neg hdone]
        dsimp only
        rw [if_neg fun hempty => hf hempty.1]
        exact h.await hroom (fun hnil => absurd hnil hf) (fun _ => Nat.not_le.mp hlt)
          fun s' conn' r' h' hne hlt => hnext s' conn' r' h' hne (by omega)

/-- Flags, the channel and the flow controller do not matter. -/
theorem Delivers.elsewhere (d : Delivers S N pushed got s)
    {queuedStopSending queuedMaxStreamData errorRead completed readChan : Bool}
    {flowController : FlowControl.StreamFlowController} :
    Delivers S N pushed got { s with
      queuedStopSending := queuedStopSending
      queuedMaxStreamData := queuedMaxStreamData
      errorRead := errorRead
      completed := completed
      readChan := readChan
      flowController := flowController } :=
  { d with }

theorem readImpl_delivers (hN : N < maxByteCount) (d : Delivers S N pushed got s) (len : Nat) :
    (s.readImpl F conn len).Delivered S N pushed got len s := by
  obtain ⟨hremote, hlocal, hshutdown⟩ := d.alive
  rw [readImpl]
  split
  · rename_i hend
    obtain ⟨hfinal, hreadPos⟩ := d.last hend.1
    have hread := d.read
    have hz : s.currentLen = 0 := by
      rw [currentLen, hend.2]
      rfl
    refine ⟨?_, rfl, rfl, .inr ⟨rfl, ?_, hfinal, rfl⟩⟩
    · rw [append_nil]
      exact d.elsewhere
    · rw [append_nil]
      omega
  · rw [if_neg (by rw [hremote, hlocal]; exact not_or.mpr ⟨false_ne_true, false_ne_true⟩),
      if_neg (by rw [hshutdown]; exact false_ne_true)]
    have h : InRead S N pushed got len s s ⟨len, [], ⟨false, false⟩⟩ :=
      ⟨by rwa [append_nil], rfl, rfl, rfl, rfl, Nat.zero_le _⟩
    refine readLoop_delivers hN h ?_ fun hz => .inl hz
    simp only [left, rounds, length_nil]
    omega

/-- A `Read` that slept looks again. -/
theorem wake_delivers (hN : N < maxByteCount) (d : Delivers S N pushed got s)
    (hf : s.currentFrame = none) (hbuf : r.buf = []) (hlen : r.len ≠ 0) :
    (s.wake F conn r).Delivered S N pushed got r.len s := by
  have d' : Delivers S N pushed (got ++ r.buf) { s with readChan := false } := by
    rw [hbuf, append_nil]
    exact d.elsewhere
  have h : InRead S N pushed got r.len s { s with readChan := false } r :=
    ⟨d', rfl, rfl, rfl, rfl, by rw [hbuf]; exact Nat.zero_le _⟩
  have hdone : ReceiveStream.currentLen { s with readChan := false } ≤ s.readPosInFrame := by
    rw [currentLen, hf]
    exact Nat.zero_le _
  obtain ⟨s₁, hdequeue, hd⟩ := d'.dequeue hN hdone
  rw [wake]
  dsimp only
  rw [if_pos hf, hdequeue]
  refine (h.dequeued hd).await (by rw [hbuf]; exact Nat.pos_of_ne_zero hlen)
    (fun hnil => ⟨hbuf, hd.fresh, hd.nothing hnil⟩) hd.something
    fun s' conn' r' h' hne hlt => readLoop_delivers hN h' ?_ fun _ => .inr hne
  simp only [left, rounds] at *
  omega

/-! ## Frames -/

/-- The frame is cut from the stream: FIN only where the stream ends. -/
structure CutFrom (S : Nat → UInt8) (N : Nat) (frame : ParsedStreamFrame) : Prop where
  data : frame.data = slice S frame.offset frame.data.length
  le : frame.offset + frame.data.length ≤ N
  fin : frame.fin = true → frame.offset + frame.data.length = N

/-- A frame of the stream arrives without an error. -/
theorem Delivers.streamFrame (d : Delivers S N pushed got s) {frame : ParsedStreamFrame}
    (hcut : CutFrom S N frame) (h : s.handleStreamFrameImpl conn frame = .ok (s', conn', none)) :
    ∃ pushed', Delivers S N pushed' got s' ∧ s'.readChan = true ∧
      s'.currentFrame = s.currentFrame ∧ s'.errorRead = s.errorRead ∧
      s'.completed = s.completed ∧ (s.finalOffset = N → s'.finalOffset = N) := by
  obtain ⟨u, -, -, herr, ⟨hne, -⟩ | ⟨-, hlocal, -⟩ | ⟨-, -, queue, hpush, rfl⟩⟩ :=
    handleStreamFrameImpl_cases h
  · exact absurd herr.symm hne
  · rw [d.alive.2.1] at hlocal
    cases hlocal
  · let pushed' := fun x =>
      pushed x ∨ (frame.offset ≤ x ∧ x < frame.offset + frame.data.length)
    have hgrows := FrameSorter.push_ok d.queue.shape hpush
    have hinv : FrameSorter.Inv S pushed' queue := d.queue.grows hgrows hcut.data fun x => Iff.rfl
    have hreadPos := hgrows.readPos
    have hbound : ∀ x, pushed' x → x < N := by
      rintro x (hx | hx)
      · exact d.bound x hx
      · exact hx.2.trans_le hcut.le
    have hfinal : s.finalOffsetAfter frame = maxByteCount ∨ s.finalOffsetAfter frame = N := by
      rw [finalOffsetAfter]
      split_ifs with hfin
      · exact .inr (hcut.fin hfin)
      · exact d.final
    have hkeep : s.finalOffset = N → s.finalOffsetAfter frame = N := by
      intro heq
      rw [finalOffsetAfter]
      split_ifs with hfin
      · exact hcut.fin hfin
      · exact heq
    refine ⟨pushed', ⟨hinv, hbound, d.pos, hreadPos.trans d.read, d.start, d.rest, hfinal, ?_,
      d.credited, d.alive⟩, rfl, rfl, rfl, rfl, hkeep⟩
    intro hlast
    obtain ⟨heq, hend⟩ := d.last hlast
    exact ⟨hkeep heq, hreadPos.trans hend⟩

end UQuic.ReceiveStream

namespace UQuic.ReadEnd

open List Option Bool
open FlowControl (FloatOps StreamFlowController ConnectionFlowController)
open FrameSorter (slice)
open ReceiveStream (Delivers CutFrom Reading ReadResult Outcome)

/-! ## The calls -/

def returned (e : ReadEnd) : List UInt8 := e.results.flatMap (·.data)

variable {F : FloatOps} {S : Nat → UInt8} {N : Nat} {e e' : ReadEnd}
  {conn conn' : ConnectionFlowController}

/-- The stream has delivered what was returned; a sleeping `Read` has a token, or
nothing to wait for; EOF was the end. -/
structure Inv (S : Nat → UInt8) (N : Nat) (pushed : Nat → Prop) (e : ReadEnd) : Prop where
  delivers : Delivers S N pushed e.returned e.stream
  asleep : ∀ r ∈ e.reading, r.buf = [] ∧ r.len ≠ 0 ∧ e.stream.currentFrame = none ∧
    (e.stream.readChan = true ∨ ¬ pushed e.stream.frameQueue.readPos ∧
      ¬ e.stream.finalOffset ≤ e.stream.frameQueue.readPos)
  ended : e.stream.errorRead = true → e.stream.completed = true
  results : ∀ r ∈ e.results, r.err = none ∨ r.err = some .eof
  eof : (∃ r ∈ e.results, r.err = some .eof) → e.returned.length = N ∧ e.stream.finalOffset = N
  quiet : e.abandoning = false

/-- `isNewlyCompleted` sets its flag for a known final offset and an error that was read. -/
theorem isNewlyCompleted_alive {s : ReceiveStream} (hlocal : s.cancelledLocally = false) :
    s.isNewlyCompleted = if s.completed = false ∧ s.finalOffset ≠ maxByteCount ∧ s.errorRead = true
      then ({ s with completed := true }, true) else (s, false) := by
  rw [ReceiveStream.isNewlyCompleted, hlocal]
  cases s.completed <;> by_cases hfinal : s.finalOffset = maxByteCount <;>
    cases s.errorRead <;> simp [hfinal]

/-- Nothing is left to abandon. -/
theorem complete_eq {e : ReadEnd} (hlocal : e.stream.cancelledLocally = false)
    (hended : e.stream.errorRead = true → e.stream.completed = true) : e.complete = e := by
  have hnot : ¬ (e.stream.completed = false ∧ e.stream.finalOffset ≠ maxByteCount ∧
      e.stream.errorRead = true) := by
    rintro ⟨hcompleted, -, herr⟩
    rw [hended herr] at hcompleted
    cases hcompleted
  rw [complete, isNewlyCompleted_alive hlocal, if_neg hnot, Bool.or_false]

theorem report_eq (hlocal : e.stream.cancelledLocally = false) :
    ∃ completed reported, e.report =
        { e with stream := { e.stream with completed := completed }, reported := reported } ∧
      (e.stream.completed = true → completed = true) ∧
      (e.stream.finalOffset ≠ maxByteCount → e.stream.errorRead = true → completed = true) := by
  rw [report, isNewlyCompleted_alive hlocal]
  split_ifs with hnot
  · exact ⟨true, _, rfl, fun _ => rfl, fun _ _ => rfl⟩
  · refine ⟨e.stream.completed, _, rfl, id, fun hfinal herr => ?_⟩
    by_contra hcompleted
    exact hnot ⟨eq_false_iff.mpr hcompleted, hfinal, herr⟩

theorem returned_append (r : ReadResult) :
    (e.results ++ [r]).flatMap (·.data) = e.returned ++ r.data := by
  rw [flatMap_append, flatMap_singleton, returned]

variable {pushed : Nat → Prop}

/-- A `Read` returns or goes to sleep. -/
theorem Inv.settle (hi : Inv S N pushed e) (hN : N < maxByteCount) {len : Nat} {o : Outcome}
    (ho : o.Delivered S N pushed e.returned len e.stream) (h : e.settle o = some (e', conn')) :
    Inv S N pushed e' := by
  cases o with
  | panicked => exact ho.elim
  | waiting s conn r =>
    cases h
    obtain ⟨d, hfinal, hcompleted, herr, hbuf, hlen, hne, hf, hpushed, hlast⟩ := ho
    refine ⟨d, ?_, ?_, hi.results, fun h => ⟨(hi.eof h).1, hfinal.trans (hi.eof h).2⟩, hi.quiet⟩
    · intro r' hr
      cases hr
      exact ⟨hbuf, by rwa [hlen], hf, .inr ⟨hpushed, hlast⟩⟩
    · intro h
      exact hcompleted.trans (hi.ended (herr.symm.trans h))
  | returned s conn due r =>
    obtain ⟨d, hfinal, hcompleted, hresult⟩ := ho
    obtain ⟨completed, reported, hreport, hkept, hset⟩ :=
      report_eq (e := { e with stream := s, reading := none, results := e.results ++ [r] })
        d.alive.2.1
    rw [ReadEnd.settle, hreport] at h
    cases h
    have d' : Delivers S N pushed ((e.results ++ [r]).flatMap (·.data))
        { s with completed := completed } := by
      rw [returned_append]
      exact d.elsewhere
    refine ⟨d', (fun _ hr => by cases hr), ?_, ?_, ?_, hi.quiet⟩
    · intro herr
      have herr : s.errorRead = true := herr
      rcases hresult with ⟨-, -, hsame⟩ | ⟨-, -, hend, -⟩
      · exact hkept (hcompleted.trans (hi.ended (hsame.symm.trans herr)))
      · refine hset ?_ herr
        show s.finalOffset ≠ maxByteCount
        rw [hend]
        exact Nat.ne_of_lt hN
    · intro r' hr
      rcases mem_append.mp hr with hr | hr
      · exact hi.results r' hr
      · rw [mem_singleton.mp hr]
        exact hresult.imp And.left And.left
    · rintro ⟨r', hr, heof⟩
      show ((e.results ++ [r]).flatMap (·.data)).length = N ∧ s.finalOffset = N
      rw [returned_append]
      rcases mem_append.mp hr with hr | hr
      · -- Nothing can follow the end of the stream.
        obtain ⟨hlength, hend⟩ := hi.eof ⟨r', hr, heof⟩
        have hle := d.length_le
        rw [length_append] at hle ⊢
        exact ⟨by omega, hfinal.trans hend⟩
      · rw [mem_singleton.mp hr] at heof
        rcases hresult with ⟨hno, -⟩ | ⟨-, hlength, hend, -⟩
        · rw [hno] at heof
          cases heof
        · exact ⟨hlength, hend⟩

/-- Once everything was returned and the final offset is known, a `Read` that can
return a byte returns EOF. -/
theorem settle_end {len : Nat} {o : Outcome} (hlen : len ≠ 0)
    (hall : e.returned.length = N) (hfinal : e.stream.finalOffset = N)
    (ho : o.Delivered S N pushed e.returned len e.stream) :
    ∃ e' conn', e.settle o = some (e', conn') ∧ e'.results = e.results ++ [⟨[], some .eof⟩] := by
  cases o with
  | panicked => exact ho.elim
  | waiting s conn r =>
    obtain ⟨d, hsame, -, -, -, -, -, -, -, hlast⟩ := ho
    have hread := (d.exhausted hall).2
    omega
  | returned s conn due r =>
    obtain ⟨d, -, -, hresult⟩ := ho
    have hle := d.length_le
    rw [length_append] at hle
    have hnil : r.data = [] := length_eq_zero_iff.mp (by omega)
    rcases hresult with ⟨-, hdata, -⟩ | ⟨heof, -⟩
    · exact absurd hnil (hdata hlen)
    · obtain ⟨data, err⟩ := r
      have hnil : data = [] := hnil
      have heof : err = some .eof := heof
      subst hnil heof
      exact ⟨_, _, rfl, rfl⟩

theorem Inv.elsewhere (hi : Inv S N pushed e) {granted : List Int}
    {queuedStopSending queuedMaxStreamData : Bool} {flowController : StreamFlowController} :
    Inv S N pushed { e with
      stream := { e.stream with
        queuedStopSending := queuedStopSending
        queuedMaxStreamData := queuedMaxStreamData
        flowController := flowController }
      granted := granted } :=
  { hi with delivers := hi.delivers.elsewhere }

/-! ## Every run -/

/-- A call to the stream, or whatever other streams do to the connection. -/
inductive Event
  | call (c : Call)
  | elsewhere (conn : ConnectionFlowController)

def step (F : FloatOps) (s : ReadEnd × ConnectionFlowController) :
    Event → Option (ReadEnd × ConnectionFlowController)
  | .call c => s.1.call F s.2 c
  | .elsewhere conn => some (s.1, conn)

def machine (F : FloatOps) (fc : StreamFlowController) (conn : ConnectionFlowController) :
    Machine (ReadEnd × ConnectionFlowController) Event :=
  .ofStep (new fc, conn) (step F)

/-- The peer sends frames of `S`, with FIN only at its end, and nobody gives up. -/
def FromStream (S : List UInt8) (_ : ReadEnd × ConnectionFlowController) : Event → Prop
  | .call (.streamFrame frame) =>
    frame.data = (S.drop frame.offset).take frame.data.length ∧
      frame.offset + frame.data.length ≤ S.length ∧
      (frame.fin = true → frame.offset + frame.data.length = S.length)
  | .call (.resetStreamFrame _) | .call (.cancelRead _) | .call .closeForShutdown => False
  | _ => True

instance (S : List UInt8) (s : ReadEnd × ConnectionFlowController) :
    (ev : Event) → Decidable (FromStream S s ev)
  | .call (.streamFrame _) => inferInstanceAs (Decidable (_ ∧ _ ∧ (_ → _)))
  | .call (.resetStreamFrame _) | .call (.cancelRead _) | .call .closeForShutdown => .isFalse id
  | .call (.read _) | .call .wake | .call .abandon | .call (.getControlFrame _)
  | .call (.getWindowUpdate _) | .elsewhere _ => .isTrue trivial

/-- The bytes of a list, by their offset. -/
theorem slice_getD {S : List UInt8} {a n : Nat} (h : a + n ≤ S.length) :
    slice (fun i => S.getD i 0) a n = (S.drop a).take n := by
  refine ext_getElem ?_ fun i hi _ => ?_
  · rw [FrameSorter.length_slice, length_take, length_drop]
    omega
  · rw [FrameSorter.length_slice] at hi
    simp only [slice, getElem_map, getElem_range', getElem_take, getElem_drop, Nat.one_mul]
    rw [getD_eq_getElem?_getD, List.getElem?_eq_getElem (by omega), getD_some]

/-- One call keeps the invariant, unless it logs an error. -/
theorem call_inv {S : List UInt8} (hN : S.length < maxByteCount) {c : Call} {pushed : Nat → Prop}
    (hi : Inv (fun i => S.getD i 0) S.length pushed e)
    (hc : FromStream S (e, conn) (.call c)) (h : e.call F conn c = some (e', conn'))
    (hok : e'.errors = []) : ∃ pushed, Inv (fun i => S.getD i 0) S.length pushed e' := by
  cases c with
  | streamFrame frame =>
    obtain ⟨hdata, hle, hfin⟩ := hc
    obtain ⟨⟨s, conn'', err⟩, hf, heq⟩ := map_eq_some_iff.mp h
    have hf := Except.toOption_eq_some_iff.mp hf
    cases heq
    have herr : err = none := by
      have hnil := (append_eq_nil_iff.mp hok).2
      cases err with
      | none => rfl
      | some _ => cases hnil
    subst herr
    have hcut : CutFrom (fun i => S.getD i 0) S.length frame :=
      ⟨hdata.trans (slice_getD hle).symm, hle, hfin⟩
    obtain ⟨pushed', d, htok, hcurrent, herror, hcompleted, hfinal⟩ :=
      hi.delivers.streamFrame hcut hf
    have hended : s.errorRead = true → s.completed = true := fun h =>
      hcompleted.trans (hi.ended (herror.symm.trans h))
    rw [complete_eq d.alive.2.1 hended]
    refine ⟨pushed', d, ?_, hended, hi.results, fun h => ⟨(hi.eof h).1, hfinal (hi.eof h).2⟩,
      hi.quiet⟩
    intro r hr
    obtain ⟨hbuf, hlen, hno, -⟩ := hi.asleep r hr
    exact ⟨hbuf, hlen, hcurrent.trans hno, .inl htok⟩
  | read len =>
    simp only [call] at h
    split_ifs at h
    exact ⟨pushed, hi.settle hN (ReceiveStream.readImpl_delivers hN hi.delivers len) h⟩
  | wake =>
    obtain ⟨r, hreading, h⟩ := bind_eq_some_iff.mp h
    split_ifs at h
    obtain ⟨hbuf, hlen, hf, -⟩ := hi.asleep r hreading
    exact ⟨pushed, hi.settle hN (ReceiveStream.wake_delivers hN hi.delivers hf hbuf hlen) h⟩
  | abandon =>
    simp only [call, hi.quiet, false_eq_true, if_false] at h
    cases h
  | getControlFrame t =>
    simp only [call, ReceiveStream.getControlFrame] at h
    split at h
    · cases h
      exact ⟨pushed, hi.elsewhere⟩
    · split at h <;> cases h <;> exact ⟨pushed, hi.elsewhere⟩
  | getWindowUpdate t =>
    cases h
    exact ⟨pushed, hi.elsewhere⟩
  | resetStreamFrame frame | cancelRead code | closeForShutdown => exact hc.elim

theorem inv_new (S : Nat → UInt8) (N : Nat) (fc : StreamFlowController) :
    Inv S N (fun _ => False) (new fc) where
  delivers := ⟨FrameSorter.inv_new, fun _ h => h.elim, fun h => absurd rfl h, rfl,
    rfl, rfl, .inl rfl,
    fun h => absurd h false_ne_true, rfl, rfl, rfl, rfl⟩
  asleep _ h := by cases h
  ended h := absurd h false_ne_true
  results _ h := absurd h not_mem_nil
  eof := fun ⟨_, h, _⟩ => absurd h not_mem_nil
  quiet := rfl

theorem run_inv {S : List UInt8} (hN : S.length < maxByteCount) {fc : StreamFlowController}
    {conn₀ : ConnectionFlowController} {tr : List Event} {s : ReadEnd × ConnectionFlowController}
    (hrun : ((machine F fc conn₀).guard (FromStream S)).Run tr s) (hok : s.1.errors = []) :
    ∃ pushed, Inv (fun i => S.getD i 0) S.length pushed s.1 := by
  refine Machine.Run.stable (I := fun s => s.1.errors = [] →
    ∃ pushed, Inv (fun i => S.getD i 0) S.length pushed s.1) ?_ ?_ hrun hok
  · rintro s rfl -
    exact ⟨_, inv_new _ _ fc⟩
  · rintro s ev s' ih ⟨hev, hstep⟩ hok
    cases ev with
    | elsewhere conn =>
      cases hstep
      exact ih hok
    | call c =>
      -- An error that was logged stays in the log.
      obtain ⟨errs, herrs, -⟩ := call_errors hstep
      rw [herrs] at hok
      obtain ⟨pushed, hi⟩ := ih (append_eq_nil_iff.mp hok).1
      exact call_inv hN hi hev hstep (herrs.trans hok)

/-- What the application has got of the stream `S`. -/
structure Delivered (F : FloatOps) (S : List UInt8) (e : ReadEnd)
    (conn : ConnectionFlowController) :
    Prop where
  start : e.returned <+: S
  credited : e.stream.credited.sum = e.returned.length
  errors : ∀ r ∈ e.results, r.err = none ∨ r.err = some .eof
  /-- EOF is never returned with bytes missing, or before the final offset is known. -/
  eof : (∃ r ∈ e.results, r.err = some .eof) →
    e.returned = S ∧ e.stream.finalOffset = S.length
  /-- At the end the next `Read` returns EOF, -/
  next : e.returned = S → e.stream.finalOffset = S.length → e.reading = none → ∀ len ≠ 0,
    ∃ e' conn', e.call F conn (.read len) = some (e', conn') ∧
      e'.results = e.results ++ [⟨[], some .eof⟩]
  /-- and so does the one that sleeps. -/
  wakes : e.returned = S → e.stream.finalOffset = S.length → e.reading ≠ none →
    ∃ e' conn', e.call F conn .wake = some (e', conn') ∧
      e'.results = e.results ++ [⟨[], some .eof⟩]
  /-- A sleeping `Read` is woken for data. -/
  token : e.reading ≠ none → e.stream.frameQueue.queue.lookup e.stream.frameQueue.readPos ≠ none →
    e.stream.readChan = true

/-- **A receive stream delivers the stream.**  For a stream shorter than
`MaxByteCount`, after any calls in which no frame was refused. -/
theorem read_delivers {S : List UInt8} (hN : S.length < maxByteCount) {fc : StreamFlowController}
    {conn₀ : ConnectionFlowController} {tr : List Event} {s : ReadEnd × ConnectionFlowController}
    (hrun : ((machine F fc conn₀).guard (FromStream S)).Run tr s) (hok : s.1.errors = []) :
    Delivered F S s.1 s.2 := by
  obtain ⟨e, conn⟩ := s
  show Delivered F S e conn
  obtain ⟨pushed, hi⟩ : ∃ pushed, Inv (fun i => S.getD i 0) S.length pushed e :=
    run_inv hN hrun hok
  have hle : e.returned.length ≤ S.length := hi.delivers.length_le
  have htake : e.returned = S.take e.returned.length := by
    have hstart := hi.delivers.start
    rwa [slice_getD (by omega), drop_zero] at hstart
  have hall : e.returned = S → e.returned.length = S.length := congrArg List.length
  have hbegin : e.returned <+: S := by
    rw [htake]
    exact take_prefix _ _
  refine ⟨hbegin, hi.delivers.credited, hi.results, ?_, ?_, ?_, ?_⟩
  · intro heof
    obtain ⟨hlength, hfinal⟩ := hi.eof heof
    rw [hlength, take_length] at htake
    exact ⟨htake, hfinal⟩
  · intro hS hfinal hreading len hlen
    simp only [call, hreading, isSome_none, false_eq_true, if_false]
    exact settle_end hlen (hall hS) hfinal
      (ReceiveStream.readImpl_delivers hN hi.delivers len)
  · intro hS hfinal hreading
    obtain ⟨r, hr⟩ := ne_none_iff_exists'.mp hreading
    obtain ⟨hbuf, hlen, hf, hwhy⟩ := hi.asleep r hr
    have hread := (hi.delivers.exhausted (hall hS)).2
    have htok : e.stream.readChan = true := hwhy.resolve_right fun hmore =>
      hmore.2 (by rw [hfinal, hread])
    simp only [call, hr, bind_some, htok, if_true]
    exact settle_end hlen (hall hS) hfinal
      (ReceiveStream.wake_delivers hN hi.delivers hf hbuf hlen)
  · intro hreading hentry
    obtain ⟨r, hr⟩ := ne_none_iff_exists'.mp hreading
    obtain ⟨-, -, -, hwhy⟩ := hi.asleep r hr
    exact hwhy.resolve_right fun hmore => hentry
      (hi.delivers.queue.shape.lookup_readPos.mpr fun hp => hmore.1
        ((hi.delivers.queue.pushed _).mpr hp))

/-- Two bytes in one frame, read one at a time, with the FIN in a frame of its own that
comes between the two `Read`s. -/
def finBetweenReads : List Event :=
  [.call (.streamFrame ⟨⟨0, 0, [1, 2], false, true⟩, 0, by decide⟩), .call (.read 1),
    .call (.streamFrame ⟨⟨0, 2, [], true, true⟩, 1, by decide⟩), .call (.read 1)]

/-- A stream with room for a hundred bytes. -/
def smallStream : ReadEnd × ConnectionFlowController := (new (.new 0 100 100 0), .new 100 100)

theorem run_finBetweenReads :
    ((machine .exact smallStream.1.stream.flowController smallStream.2).guard
      (FromStream [1, 2])).Run finBetweenReads
        ((finBetweenReads.foldlM (step .exact) smallStream).getD smallStream) := by
  rw [machine, Machine.run_guard_iff]
  rfl

theorem read_delivers_finBetweenReads :
    ∃ s, ((machine .exact smallStream.1.stream.flowController smallStream.2).guard
        (FromStream [1, 2])).Run finBetweenReads s ∧ s.1.errors = [] ∧ s.1.returned = [1, 2] ∧
      Delivered .exact [1, 2] s.1 s.2 :=
  ⟨_, run_finBetweenReads, rfl, rfl, read_delivers (by decide) run_finBetweenReads rfl⟩

/-- The last `Read` returns the last byte of the stream, whose final offset is known,
and no EOF. -/
theorem read_lastByte_without_eof :
    ∃ s, ((machine .exact smallStream.1.stream.flowController smallStream.2).guard
        (FromStream [1, 2])).Run finBetweenReads s ∧ s.1.errors = [] ∧ s.1.returned = [1, 2] ∧
      s.1.stream.finalOffset = 2 ∧ s.1.results = [⟨[1], none⟩, ⟨[2], none⟩] :=
  ⟨_, run_finBetweenReads, rfl, rfl, rfl, rfl⟩

end UQuic.ReadEnd
