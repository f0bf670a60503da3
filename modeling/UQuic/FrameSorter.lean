/-
# `UQuic.FrameSorter` — the model of `frame_sorter.go`

A receive stream puts STREAM frames into the sorter as they arrive and reads
contiguous data out of it.  The sorter keeps what has not arrived yet as a list
of gaps, and what has arrived and is not read yet as a map from offsets to
pieces of data.

    push    fill gaps with the new piece: cut it where it meets data that is
            already there, replace pieces it covers, shrink, split or remove gaps
    pop     hand out the piece at the read position

An element of the gap list is held by its surroundings, `before ++ gap :: after`.
Callbacks are numbers; `done` logs the calls to them.
-/
import UQuic.Protocol
import UQuic.Lib.Except

namespace UQuic

/-- `byteInterval`. -/
structure ByteInterval where
  start : Nat
  stop : Nat
  deriving DecidableEq, Repr

/-- `frameSorterEntry`. -/
structure FrameSorterEntry where
  data : List UInt8
  doneCb : Option Nat
  deriving DecidableEq, Repr

/-- `frameSorter`. -/
structure FrameSorter where
  queue : AList fun _ : Nat => FrameSorterEntry
  readPos : Nat
  gaps : List ByteInterval
  done : List Nat

namespace FrameSorter

/-- The panics, and the error that `Push` returns. -/
inductive Failure
  /-- `no gap found`. -/
  | noGapFound
  /-- `frame sorter BUG: read position higher than a gap`. -/
  | readPositionHigher
  /-- `slice bounds out of range`. -/
  | sliceOutOfRange
  /-- A nil pointer. -/
  | nilDereference
  /-- The gap list is not in order, and the code goes on in a way not modelled. -/
  | gapsDisordered
  /-- `too many gaps in received data`. -/
  | tooManyGaps
  deriving DecidableEq, Repr

def maxStreamFrameSorterGaps : Nat := 1000

def minStreamFrameBufferSize : Nat := 128

/-- `newFrameSorter`. -/
def new : FrameSorter := ⟨∅, 0, [⟨0, maxByteCount⟩], []⟩

/-! ## Gaps -/

/-- What `findStartGap` returns: the gap, where it is, and whether the offset is in
it (or at its end). -/
structure StartGap where
  before : List ByteInterval
  gap : ByteInterval
  after : List ByteInterval
  inGap : Bool
  deriving DecidableEq, Repr

/-- `findStartGap`; `before` are the gaps already passed. -/
def findStartGap (offset : Nat) (before : List ByteInterval) :
    List ByteInterval → Except Failure StartGap
  | [] => .error .noGapFound
  | gap :: after =>
    if gap.start ≤ offset ∧ offset ≤ gap.stop then .ok ⟨before, gap, after, true⟩
    else if offset < gap.start then .ok ⟨before, gap, after, false⟩
    else findStartGap offset (before ++ [gap]) after

/-- Where `findEndGap` ends up, seen from the start gap. -/
inductive EndGap
  /-- At the gap before it. -/
  | prev
  /-- At the start gap. -/
  | same
  /-- At a later gap, past the gaps `between`. -/
  | later (between : List ByteInterval) (gap : ByteInterval) (after : List ByteInterval)
  deriving DecidableEq, Repr

/-- The gap before the current one, if `passed` are the gaps since the start gap. -/
def prevOf (passed rest : List ByteInterval) : EndGap :=
  match passed.getLast? with
  | none => .same
  | some gap => .later passed.dropLast gap rest

/-- The loop of `findEndGap` after the start gap. -/
def findEndGapLoop (offset : Nat) (passed : List ByteInterval) :
    List ByteInterval → Except Failure (EndGap × Bool)
  | [] => .error .noGapFound
  | gap :: after =>
    if gap.start ≤ offset ∧ offset < gap.stop then .ok (.later passed gap after, true)
    else if offset < gap.start then .ok (prevOf passed (gap :: after), false)
    else findEndGapLoop offset (passed ++ [gap]) after

def findEndGap (offset : Nat) (startGap : ByteInterval) (after : List ByteInterval) :
    Except Failure (EndGap × Bool) :=
  if startGap.start ≤ offset ∧ offset < startGap.stop then .ok (.same, true)
  else if offset < startGap.start then .ok (.prev, false)
  else findEndGapLoop offset [] after

/-- The check for duplicate data before the queue is looked at. -/
def isDuplicate (stop : Nat) (f : StartGap) : EndGap → Except Failure Bool
  | .prev =>
    match f.before.getLast? with
    | none => .error .nilDereference
    | some endGap =>
      if endGap.start ≤ f.gap.stop ∧ stop ≤ f.gap.start then .ok true
      else .error .gapsDisordered
  | .same => .ok (stop ≤ f.gap.start)
  | .later _ endGap _ => .ok (endGap.start ≤ f.gap.stop ∧ stop ≤ f.gap.start)

/-! ## The new piece of data -/

/-- The piece being added: it lies at `[start, stop)`. -/
structure Piece where
  data : List UInt8
  start : Nat
  stop : Nat
  wasCut : Bool
  deriving DecidableEq, Repr

/-- `data = data[pos-start:]`. -/
def Piece.cutFront (p : Piece) (pos : Nat) : Except Failure Piece :=
  if pos < p.start ∨ p.data.length < pos - p.start then .error .sliceOutOfRange
  else .ok ⟨p.data.drop (pos - p.start), pos, p.stop, true⟩

/-- `data = data[:pos-start]`. -/
def Piece.cutBack (p : Piece) (pos : Nat) : Except Failure Piece :=
  if pos < p.start ∨ p.data.length < pos - p.start then .error .sliceOutOfRange
  else .ok ⟨p.data.take (pos - p.start), p.start, pos, true⟩

/-! ## The queue -/

/-- Delete the entry at `pos` and call its callback. -/
def deleteEntry (s : FrameSorter) (pos : Nat) (entry : FrameSorterEntry) : FrameSorter :=
  { s with queue := s.queue.erase pos, done := s.done ++ entry.doneCb.toList }

/-- What the loop over the entries that the new frame may replace ends with. -/
inductive Replaced
  /-- The frame lies within an entry. -/
  | duplicate
  /-- It replaced entries or not, and has to be cut at `cutAt`. -/
  | stopped (s : FrameSorter) (hasReplaced : Bool) (cutAt : Option Nat)

/-- The loop over the entries from `pos` on.  Every round deletes an entry, so
`fuel` is their number. -/
def replaceLoop (stop : Nat) : Nat → FrameSorter → Nat → Bool → Replaced
  | 0, s, _, hasReplaced => .stopped s hasReplaced none
  | fuel + 1, s, pos, hasReplaced =>
    match s.queue.lookup pos with
    | none => .stopped s hasReplaced none
    | some oldEntry =>
      if oldEntry.data.length < stop - pos ∨
          (hasReplaced = true ∧ stop - pos = oldEntry.data.length) then
        replaceLoop stop fuel (s.deleteEntry pos oldEntry) (pos + oldEntry.data.length) true
      else if hasReplaced then .stopped s hasReplaced (some pos)
      else .duplicate

/-- The loop of `deleteConsecutive`. -/
def deleteLoop : Nat → FrameSorter → Nat → FrameSorter
  | 0, s, _ => s
  | fuel + 1, s, pos =>
    match s.queue.lookup pos with
    | none => s
    | some oldEntry => deleteLoop fuel (s.deleteEntry pos oldEntry) (pos + oldEntry.data.length)

def deleteConsecutive (s : FrameSorter) (pos : Nat) : FrameSorter :=
  deleteLoop s.queue.keys.length s pos

/-- The loop over the gaps between the start gap and the end gap: what remains of
them, and of the queue.  An end gap that ends before it starts would be removed
too. -/
def deleteGaps (endGap : ByteInterval) :
    List ByteInterval → FrameSorter → Except Failure (List ByteInterval × FrameSorter)
  | [], s => if endGap.stop < endGap.start then .error .gapsDisordered else .ok ([], s)
  | gap :: rest, s =>
    if gap.stop < endGap.start then deleteGaps endGap rest (s.deleteConsecutive gap.stop)
    else .ok (gap :: rest, s)

/-! ## `push` -/

/-- Cut at an entry that reaches past the frame. -/
def cutReplaced (p : Piece) : Option Nat → Except Failure Piece
  | none => .ok p
  | some pos => p.cutBack pos

/-- Cut the frame, such that it starts at the start of the gap. -/
def cutToStartGap (p : Piece) (f : StartGap) (hasReplaced : Bool) : Except Failure Piece :=
  if !f.inGap && !hasReplaced then p.cutFront f.gap.start else .ok p

/-- What becomes of the start gap, and whether its end was adjusted. -/
def adjustStartGap (p : Piece) (gap : ByteInterval) (hasReplaced : Bool) :
    List ByteInterval × Bool :=
  if p.start ≤ gap.start then
    if gap.stop ≤ p.stop then ([], false) else ([⟨p.stop, gap.stop⟩], false)
  else if hasReplaced then ([gap], false)
  else ([⟨gap.start, p.start⟩], true)

/-- Cut the frame, such that it ends at the end of the gap. -/
def cutToEndGap (p : Piece) (endsInGap : Bool) (endGapEnd : Nat) : Except Failure Piece :=
  if endsInGap = false ∧ p.start ≠ endGapEnd ∧ endGapEnd < p.stop then p.cutBack endGapEnd
  else .ok p

/-- The gaps where the frame starts and ends in the same one. -/
def gapsSame (p : Piece) (f : StartGap) (first : List ByteInterval × Bool) : List ByteInterval :=
  f.before ++ (first.1 ++
    if p.stop ≠ f.gap.stop ∧ first.2 = true then [⟨p.stop, f.gap.stop⟩] else [])
    ++ f.after

/-- The gaps where the frame ends in a later one. -/
def gapsLater (p : Piece) (f : StartGap) (first : List ByteInterval × Bool)
    (between : List ByteInterval) (endGap : ByteInterval) (after : List ByteInterval) :
    List ByteInterval :=
  f.before ++ (first.1 ++ between ++ if p.stop = endGap.stop then [] else [⟨p.stop, endGap.stop⟩])
    ++ after

/-- The end of `push`: a small piece that was cut is copied, and the piece goes into
the queue. -/
def enqueue (s : FrameSorter) (p : Piece) (doneCb : Option Nat) : Except Failure FrameSorter :=
  let copied := p.wasCut && decide (p.data.length < minStreamFrameBufferSize)
  if maxStreamFrameSorterGaps < s.gaps.length then .error .tooManyGaps
  else .ok { s with
    queue := s.queue.insert p.start ⟨p.data, if copied then none else doneCb⟩
    done := s.done ++ if copied then doneCb.toList else [] }

/-- `push`, once the queue was looked at. -/
def fill (s : FrameSorter) (p : Piece) (doneCb : Option Nat) (f : StartGap) (hasReplaced : Bool)
    (endsInGap : Bool) : EndGap → Except Failure FrameSorter
  | .prev => .error .gapsDisordered
  | .same =>
    (cutToEndGap p endsInGap f.gap.stop).bind fun p' =>
      { s with gaps := gapsSame p' f (adjustStartGap p f.gap hasReplaced) }.enqueue p' doneCb
  | .later between endGap after =>
    (deleteGaps endGap between (s.deleteConsecutive f.gap.stop)).bind fun (between, s) =>
      (cutToEndGap p endsInGap endGap.stop).bind fun p' =>
        { s with
          gaps := gapsLater p' f (adjustStartGap p f.gap hasReplaced) between endGap after }.enqueue
            p' doneCb

/-- `push`, once the gaps are found. -/
def pushAt (s : FrameSorter) (p : Piece) (doneCb : Option Nat) (f : StartGap) (endGap : EndGap)
    (endsInGap : Bool) : Except Failure (Option FrameSorter) :=
  match replaceLoop p.stop s.queue.keys.length s p.start false with
  | .duplicate => .ok none
  | .stopped s hasReplaced cutAt =>
    ((cutReplaced p cutAt).bind fun p => cutToStartGap p f hasReplaced).bind fun p =>
      (s.fill p doneCb f hasReplaced endsInGap endGap).map some

/-- `push`; `none` is `errDuplicateStreamData`. -/
def pushData (s : FrameSorter) (data : List UInt8) (offset : Nat) (doneCb : Option Nat) :
    Except Failure (Option FrameSorter) :=
  match data, s.gaps with
  | [], _ => .ok none
  | _, [] => .error .nilDereference
  | data, front :: _ =>
    if offset + data.length ≤ front.start then .ok none
    else
      (findStartGap offset [] s.gaps).bind fun f =>
        (findEndGap (offset + data.length) f.gap f.after).bind fun (endGap, endsInGap) =>
          (isDuplicate (offset + data.length) f endGap).bind fun dup =>
            if dup then .ok none
            else s.pushAt ⟨data, offset, offset + data.length, false⟩ doneCb f endGap endsInGap

def push (s : FrameSorter) (data : List UInt8) (offset : Nat) (doneCb : Option Nat) :
    Except Failure FrameSorter :=
  (s.pushData data offset doneCb).map fun
    | none => { s with done := s.done ++ doneCb.toList }
    | some s => s

/-- What `Pop` returns. -/
structure Popped where
  offset : Nat
  data : Option (List UInt8)
  doneCb : Option Nat
  deriving DecidableEq, Repr

def pop (s : FrameSorter) : Except Failure (FrameSorter × Popped) :=
  match s.queue.lookup s.readPos with
  | none => .ok (s, ⟨s.readPos, none, none⟩)
  | some entry =>
    match s.gaps with
    | [] => .error .nilDereference
    | front :: _ =>
      if front.stop ≤ s.readPos + entry.data.length then .error .readPositionHigher
      else .ok ({ s with
        queue := s.queue.erase s.readPos
        readPos := s.readPos + entry.data.length }, ⟨s.readPos, some entry.data, entry.doneCb⟩)

def hasMoreData (s : FrameSorter) : Bool := !s.queue.keys.isEmpty

end FrameSorter

end UQuic
