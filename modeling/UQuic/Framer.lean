/-
# `UQuic.Framer` — application frames for a packet

`framer.Append` of `framer.go`.  Into the room that is left in a packet it puts, in
this order, a PATH_RESPONSE, control frames of streams, other control frames, and
STREAM frames with whatever becomes blocked by sending them.  A STREAM frame may take
a little more than the room there is: if it is the last one, its length field is
dropped again.

A stream is known by what `popStreamFrame` promises (`SendStream`), and a control
frame by its bytes.  What stays queued afterwards is not tracked: every result about
the packer holds for any contents of these queues.  `none` is a panic.

## What is proved

`append_ok`: what is added fits the room, and has the length that is reported.
-/
import UQuic.RetransmissionQueue
import UQuic.Wire.StreamFrame

namespace UQuic

open List Option
open Wire (StreamFrame)

/-! ## Streams and control frames -/

/-- The largest size of a stream-related control frame, which is RESET_STREAM. -/
def maxStreamControlFrameSize : Nat := 25

/-- A frame that `getControlFrame` of a stream returns. -/
structure StreamControlFrame where
  bytes : List UInt8
  le : bytes.length ≤ maxStreamControlFrameSize

/-- What `popStreamFrame` returns: a STREAM frame, and a STREAM_DATA_BLOCKED frame if the
stream has just become blocked. -/
structure PoppedFrame where
  frame : Option StreamFrame
  blocked : Option (List UInt8)

/-- A stream that has data: `maxBytes` is the maximum length of the frame it returns. -/
structure SendStream where
  popStreamFrame : Int → PoppedFrame
  promise : ∀ maxBytes f, (minStreamFrameSize : Int) ≤ maxBytes →
    (popStreamFrame maxBytes).frame = some f →
    f.Writable ∧ f.dataLenPresent = true ∧ (f.size : Int) ≤ maxBytes

/-- `framer`. -/
structure Framer where
  pathResponses : List (List UInt8)
  /-- The streams of the map, in the order they are visited, each with its frames. -/
  streamsWithControlFrames : List (List StreamControlFrame)
  /-- The last one is taken first. -/
  controlFrames : List (List UInt8)
  /-- The streams of the queue; `none` for one that has been removed. -/
  streamQueue : List (Option SendStream)
  /-- DATA_BLOCKED, if sending makes the connection newly blocked. -/
  newlyBlocked : Option (List UInt8)

namespace Framer

def hasData (fr : Framer) : Bool :=
  !fr.streamQueue.isEmpty || !fr.streamsWithControlFrames.isEmpty ||
    !fr.controlFrames.isEmpty || !fr.pathResponses.isEmpty

def total (fs : List (List UInt8)) : Nat := (fs.map List.length).sum

def pathResponse (maxLen : Int) : List (List UInt8) → List (List UInt8)
  | [] => []
  | f :: _ => if (f.length : Int) ≤ maxLen then [f] else []

/-- The control frames of one stream, and whether the room is used up. -/
def streamControl (maxLen : Int) (length : Nat) :
    List StreamControlFrame → List (List UInt8) × Bool
  | [] => ([], maxLen - length ≤ maxStreamControlFrameSize)
  | f :: more =>
    if maxLen - length ≤ maxStreamControlFrameSize then ([], true)
    else if more.isEmpty then ([f.bytes], false)
    else
      let r := streamControl maxLen (length + f.bytes.length) more
      (f.bytes :: r.1, r.2)

/-- The control frames of the streams. -/
def streamsControl (maxLen : Int) (length : Nat) :
    List (List StreamControlFrame) → List (List UInt8)
  | [] => []
  | str :: rest =>
    let r := streamControl maxLen length str
    if r.2 then r.1 else r.1 ++ streamsControl maxLen (length + total r.1) rest

def otherControl (maxLen : Int) (length : Nat) : List (List UInt8) → List (List UInt8)
  | [] => []
  | f :: rest =>
    if maxLen < length + f.length then []
    else f :: otherControl maxLen (length + f.length) rest

def appendControlFrames (fr : Framer) (maxLen : Int) : List (List UInt8) :=
  let a := pathResponse maxLen fr.pathResponses
  let b := a ++ streamsControl maxLen (total a) fr.streamsWithControlFrames
  b ++ otherControl maxLen (total b) fr.controlFrames.reverse

/-- What the loop over the streams adds: control frames, STREAM frames, and the room left. -/
structure Popped where
  frames : List (List UInt8)
  streamFrames : List StreamFrame
  maxLen : Int

/-- A STREAM_DATA_BLOCKED frame after a STREAM frame: with the room for the next streams, or
`none` if it does not fit and is kept for the next packet. -/
def blockedRoom (maxLen : Int) : Option (List UInt8) → Option Int
  | none => some maxLen
  | some b => if maxLen < b.length then none else some (maxLen - b.length)

/-- The loop over the streams, each asked once by `getNextStreamFrame`. -/
def popStreams : Int → List (Option SendStream) → Option Popped
  | maxLen, [] => some ⟨[], [], maxLen⟩
  | maxLen, str :: rest =>
    if maxLen < minStreamFrameSize then some ⟨[], [], maxLen⟩
    else
      match str with
      | none => popStreams maxLen rest
      | some s =>
        -- the length field of the last STREAM frame is dropped later
        (QuicVarint.len maxLen.toNat).bind fun l =>
          let r := s.popStreamFrame (maxLen + l)
          let maxLen := maxLen - (r.frame.map StreamFrame.size).getD 0
          match blockedRoom maxLen r.blocked with
          | none => some ⟨[], r.frame.toList, maxLen⟩
          | some room => (popStreams room rest).map fun p =>
            ⟨r.blocked.toList ++ p.frames, r.frame.toList ++ p.streamFrames, p.maxLen⟩

/-- DATA_BLOCKED, if it fits. -/
def connBlocked (maxLen : Int) : Option (List UInt8) → List (List UInt8)
  | none => []
  | some b => if (b.length : Int) ≤ maxLen then [b] else []

/-- The last STREAM frame needs no length field. -/
def dropLastDataLen : List StreamFrame → List StreamFrame
  | [] => []
  | [f] => [{ f with dataLenPresent := false }]
  | f :: fs => f :: dropLastDataLen fs

/-- What `Append` adds to a packet. -/
structure Added where
  frames : List OutgoingFrame
  streamFrames : List StreamFrame
  length : Nat

def append (fr : Framer) (maxLen : Int) : Option Added :=
  let control := fr.appendControlFrames maxLen
  (popStreams (maxLen - total control) fr.streamQueue).map fun p =>
    let control := control ++ p.frames ++ connBlocked p.maxLen fr.newlyBlocked
    let streamFrames := dropLastDataLen p.streamFrames
    ⟨control.map .other, streamFrames, total control + (streamFrames.map StreamFrame.size).sum⟩

/-! ## What is added fits -/

theorem total_append (fs gs : List (List UInt8)) : total (fs ++ gs) = total fs + total gs := by
  rw [total, map_append, sum_append]
  rfl

theorem total_cons (f : List UInt8) (fs : List (List UInt8)) :
    total (f :: fs) = f.length + total fs := by
  rw [total, map_cons, sum_cons]
  rfl

variable {maxLen : Int}

theorem total_pathResponse (h : 0 ≤ maxLen) (fs : List (List UInt8)) :
    (total (pathResponse maxLen fs) : Int) ≤ maxLen := by
  cases fs with
  | nil => exact h
  | cons f fs =>
    rw [pathResponse]
    split_ifs with hf
    · rw [total_cons]
      exact hf
    · exact h

theorem total_streamControl : ∀ (fs : List StreamControlFrame) (length : Nat),
    (length : Int) ≤ maxLen →
    ((length + total (streamControl maxLen length fs).1 : Nat) : Int) ≤ maxLen
  | [], length, h => h
  | f :: more, length, h => by
    rw [streamControl]
    split
    · exact h
    · rename_i hroom
      have hf := f.le
      split
      · rw [total_cons, ← Nat.add_assoc]
        show ((length + f.bytes.length + 0 : Nat) : Int) ≤ maxLen
        omega
      · have hle : ((length + f.bytes.length : Nat) : Int) ≤ maxLen := by omega
        have ih := total_streamControl more _ hle
        show ((length + total (f.bytes :: _) : Nat) : Int) ≤ maxLen
        rw [total_cons, ← Nat.add_assoc]
        exact ih

theorem total_streamsControl : ∀ (strs : List (List StreamControlFrame))
    (length : Nat), (length : Int) ≤ maxLen →
    ((length + total (streamsControl maxLen length strs) : Nat) : Int) ≤ maxLen
  | [], length, h => h
  | str :: strs, length, h => by
    have hstr := total_streamControl str length h
    simp only [streamsControl]
    split
    · exact hstr
    · rw [total_append, ← Nat.add_assoc]
      exact total_streamsControl strs _ hstr

theorem total_otherControl : ∀ (fs : List (List UInt8)) (length : Nat), (length : Int) ≤ maxLen →
    ((length + total (otherControl maxLen length fs) : Nat) : Int) ≤ maxLen
  | [], length, h => h
  | f :: fs, length, h => by
    rw [otherControl]
    split_ifs with hroom
    · exact h
    · rw [total_cons, ← Nat.add_assoc]
      exact total_otherControl fs _ (by omega)

theorem total_appendControlFrames (fr : Framer) (h : 0 ≤ maxLen) :
    (total (fr.appendControlFrames maxLen) : Int) ≤ maxLen := by
  have ha := total_pathResponse h fr.pathResponses
  have hb := total_streamsControl fr.streamsWithControlFrames _ ha
  rw [← total_append] at hb
  have hc := total_otherControl fr.controlFrames.reverse _ hb
  rwa [← total_append] at hc

def streamTotal (fs : List StreamFrame) : Nat := (fs.map StreamFrame.size).sum

/-- What the loop over the streams leaves: the room, which only the length field of the last
STREAM frame may exceed. -/
structure Popped.Fits (maxLen : Int) (p : Popped) : Prop where
  writable : ∀ f ∈ p.streamFrames, f.Writable
  room : p.maxLen = maxLen - total p.frames - streamTotal p.streamFrames
  last : 0 ≤ p.maxLen ∨ ∃ fs f, p.streamFrames = fs ++ [f] ∧ f.dataLenPresent = true ∧
    0 ≤ p.maxLen + QuicVarint.size f.data.length

variable {f : StreamFrame}

/-- The header of a STREAM frame with a length field. -/
theorem size_le (hlen : f.dataLenPresent = true) :
    f.size ≤ 17 + QuicVarint.size f.data.length + f.data.length := by
  have h1 := Wire.AckFrame.size_le f.streamID
  have h2 := Wire.AckFrame.size_le f.offset
  simp only [StreamFrame.size, StreamFrame.fields, hlen, if_true, map_append, sum_append,
    StreamFrame.sum_size_ite, map_cons, map_nil, sum_cons, sum_nil]
  split <;> omega

/-- A STREAM frame that takes more than the room has a length field that makes up for it. -/
theorem oversize {l : Nat} (hw : f.Writable)
    (hlen : f.dataLenPresent = true) (hroom : (minStreamFrameSize : Int) ≤ maxLen)
    (hl : QuicVarint.len maxLen.toNat = some l) (hsize : (f.size : Int) ≤ maxLen + l) :
    0 ≤ maxLen - f.size ∨ 0 ≤ maxLen - f.size + QuicVarint.size f.data.length := by
  have hle := size_le hlen
  have hdata : f.data.length ≤ 1452 := hw.data
  have hroom : 128 ≤ maxLen := hroom
  -- a frame that takes more is long, so that its length takes two bytes, as does the room
  have hlong := QuicVarint.size_bounds f.data.length
  have hmax := QuicVarint.size_bounds maxLen.toNat
  obtain rfl := QuicVarint.eq_size_of_len hl
  omega

theorem streamTotal_append (fs gs : List StreamFrame) :
    streamTotal (fs ++ gs) = streamTotal fs + streamTotal gs := by
  rw [streamTotal, map_append, sum_append]
  rfl

theorem popStreamFrame_ok (s : SendStream) {l : Nat}
    (hroom : (minStreamFrameSize : Int) ≤ maxLen) (hl : QuicVarint.len maxLen.toNat = some l) :
    let frame := (s.popStreamFrame (maxLen + l)).frame
    let room := maxLen - ((frame.map StreamFrame.size).getD 0 : Nat)
    (∀ f ∈ frame.toList, f.Writable) ∧ room = maxLen - streamTotal frame.toList ∧
      (0 ≤ room ∨ ∃ f, frame = some f ∧ f.dataLenPresent = true ∧
        0 ≤ room + QuicVarint.size f.data.length) := by
  intro frame room
  cases hf : frame with
  | none =>
    have : room = maxLen := by simp [room, hf]
    exact ⟨(fun f hf => nomatch hf), by simp [this, streamTotal], .inl (by
      simp only [minStreamFrameSize] at hroom
      omega)⟩
  | some f =>
    have hsize : room = maxLen - f.size := by simp [room, hf]
    obtain ⟨hw, hlen, hle⟩ := s.promise (maxLen + l) f (by omega) hf
    refine ⟨fun g hg => ?_, by simp [hsize, streamTotal], ?_⟩
    · rw [mem_singleton.mp hg]
      exact hw
    · rw [hsize]
      exact (oversize hw hlen hroom hl hle).imp_right fun h => ⟨f, rfl, hlen, h⟩

theorem blockedRoom_eq_some {maxLen room : Int} {b : Option (List UInt8)}
    (h : blockedRoom maxLen b = some room) : room = maxLen - total b.toList ∧
      (b ≠ none → 0 ≤ room) := by
  cases b with
  | none =>
    cases h
    exact ⟨by simp [total], fun h => absurd rfl h⟩
  | some b =>
    rw [blockedRoom] at h
    split_ifs at h
    cases h
    exact ⟨by simp [total], fun _ => by omega⟩

theorem popStreams_small (h : maxLen < minStreamFrameSize) :
    ∀ strs, popStreams maxLen strs = some ⟨[], [], maxLen⟩
  | [] => by rw [popStreams]
  | none :: strs | some s :: strs => by simp only [popStreams, if_pos h]

theorem popStreams_fits : ∀ (strs : List (Option SendStream)) {maxLen : Int} {p : Popped},
    popStreams maxLen strs = some p → 0 ≤ maxLen → p.Fits maxLen
  | [], maxLen, p, h, h0 => by
    cases h
    exact ⟨(fun f hf => nomatch hf), by simp [total, streamTotal], .inl h0⟩
  | none :: strs, maxLen, p, h, h0 => by
    simp only [popStreams] at h
    split at h
    · cases h
      exact ⟨(fun f hf => nomatch hf), by simp [total, streamTotal], .inl h0⟩
    · exact popStreams_fits strs h h0
  | some s :: strs, maxLen, p, h, h0 => by
    simp only [popStreams] at h
    split_ifs at h with hroom
    · cases h
      exact ⟨(fun f hf => nomatch hf), by simp [total, streamTotal], .inl h0⟩
    · obtain ⟨l, hl, h⟩ := bind_eq_some_iff.mp h
      obtain ⟨hw, hsize, hlast⟩ := popStreamFrame_ok s (Int.not_lt.mp hroom) hl
      generalize s.popStreamFrame (maxLen + l) = r at h hw hsize hlast
      split at h
      · cases h
        refine ⟨hw, by simp [total, hsize], hlast.imp_right ?_⟩
        rintro ⟨f, hf, hlen, hle⟩
        exact ⟨[], f, by simp [hf], hlen, hle⟩
      · rename_i room hblocked
        obtain ⟨hroom', hpos⟩ := blockedRoom_eq_some hblocked
        obtain ⟨q, hq, rfl⟩ := map_eq_some_iff.mp h
        by_cases h0' : 0 ≤ room
        · have ih := popStreams_fits strs hq h0'
          refine ⟨fun f hf => ?_, ?_, ih.last.imp_right ?_⟩
          · rcases mem_append.mp hf with hf | hf
            · exact hw f hf
            · exact ih.writable f hf
          · rw [ih.room, hroom', hsize, total_append, streamTotal_append]
            omega
          · rintro ⟨fs, f, hfs, hlen, hle⟩
            exact ⟨_ ++ fs, f, by rw [hfs, append_assoc], hlen, hle⟩
        · -- the STREAM frame took too much, and the loop ends here
          rw [popStreams_small (by simp only [minStreamFrameSize]; omega)] at hq
          cases hq
          cases hb : r.blocked with
          | some b => exact absurd (hpos (by rw [hb]; nofun)) h0'
          | none =>
            have hroom' : room = maxLen - streamTotal r.frame.toList := by
              rw [hroom', hb, hsize]
              simp [total]
            refine ⟨by simpa using hw, by simp [total, hroom'], .inr ?_⟩
            obtain hlast | ⟨f, hf, hlen, hle⟩ := hlast
            · omega
            · refine ⟨[], f, by simp [hf], hlen, ?_⟩
              rw [hsize, ← hroom'] at hle
              exact hle

theorem size_dropDataLen (h : f.dataLenPresent = true) :
    f.size = { f with dataLenPresent := false }.size + QuicVarint.size f.data.length := by
  simp only [StreamFrame.size, StreamFrame.fields, h, if_true, Bool.false_eq_true, if_false,
    map_append, sum_append, map_cons, map_nil, sum_cons, sum_nil]
  omega

theorem dropLastDataLen_append (f : StreamFrame) : ∀ fs : List StreamFrame,
    dropLastDataLen (fs ++ [f]) = fs ++ [{ f with dataLenPresent := false }]
  | [] | [_] => rfl
  | g :: g' :: fs => by
    have ih := dropLastDataLen_append f (g' :: fs)
    simp only [cons_append, dropLastDataLen] at ih ⊢
    rw [ih]

/-- Dropping the length field does not make a frame longer. -/
theorem size_dropDataLen_le (f : StreamFrame) :
    { f with dataLenPresent := false }.size ≤ f.size := by
  cases h : f.dataLenPresent with
  | true =>
    rw [size_dropDataLen h]
    exact Nat.le_add_right _ _
  | false =>
    exact Nat.le_of_eq (by rw [← h])

theorem streamTotal_singleton (f : StreamFrame) : streamTotal [f] = f.size := sum_singleton

theorem writable_dropLastDataLen {fs : List StreamFrame} (h : ∀ f ∈ fs, f.Writable) :
    ∀ f ∈ dropLastDataLen fs, f.Writable := by
  rcases eq_nil_or_concat fs with rfl | ⟨fs, g, rfl⟩
  · exact h
  · rw [concat_eq_append] at h ⊢
    rw [dropLastDataLen_append]
    intro f hf
    rcases mem_append.mp hf with hf | hf
    · exact h f (mem_append_left _ hf)
    · have hg := h g (mem_append_right _ mem_cons_self)
      rw [mem_singleton.mp hf]
      exact { hg with }

theorem total_connBlocked (b : Option (List UInt8)) :
    (total (connBlocked maxLen b) : Int) ≤ max 0 maxLen := by
  cases b with
  | none => exact Int.le_max_left 0 maxLen
  | some b =>
    rw [connBlocked]
    split_ifs with hb
    · rw [total_cons]
      exact hb.trans (Int.le_max_right 0 maxLen)
    · exact Int.le_max_left 0 maxLen

/-- The STREAM frames without the last length field fit together with what else was added. -/
theorem Popped.Fits.total_le {p : Popped} (h : p.Fits maxLen) (b : Option (List UInt8)) :
    (total p.frames : Int) + total (connBlocked p.maxLen b) +
      streamTotal (dropLastDataLen p.streamFrames) ≤ maxLen := by
  have hroom := h.room
  have hconn : (total (connBlocked p.maxLen b) : Int) ≤ max 0 p.maxLen := total_connBlocked b
  rcases eq_nil_or_concat p.streamFrames with hfs | ⟨fs, f, hfs⟩
  · rcases h.last with h0 | ⟨gs, g, hgs, -⟩
    · rw [hfs] at hroom ⊢
      show _ + (streamTotal [] : Int) ≤ maxLen
      omega
    · rw [hgs] at hfs
      exact absurd hfs (append_ne_nil_of_right_ne_nil _ (cons_ne_nil _ _))
  · rw [concat_eq_append] at hfs
    have hle := size_dropDataLen_le f
    rw [hfs, streamTotal_append, streamTotal_singleton] at hroom
    rw [hfs, dropLastDataLen_append, streamTotal_append, streamTotal_singleton]
    rcases h.last with h0 | ⟨gs, g, hgs, hlen, hg⟩
    · omega
    · rw [hfs] at hgs
      obtain ⟨-, hfg⟩ := append_inj' hgs rfl
      cases hfg
      have := size_dropDataLen hlen
      omega

/-- What `Append` adds: writable frames of the reported length. -/
structure Added.Fits (maxLen : Int) (a : Added) : Prop where
  writable : ∀ f ∈ a.streamFrames, f.Writable
  other : ∃ bs, a.frames = bs.map .other ∧ a.length = total bs + streamTotal a.streamFrames
  length_le : a.length ≤ maxLen

theorem append_ok {fr : Framer} {a : Added} (h : fr.append maxLen = some a)
    (h0 : 0 ≤ maxLen) : a.Fits maxLen := by
  obtain ⟨p, hp, rfl⟩ := map_eq_some_iff.mp h
  have hcontrol := total_appendControlFrames fr h0
  have hfits := popStreams_fits fr.streamQueue hp (by omega)
  have hle := hfits.total_le fr.newlyBlocked
  refine ⟨writable_dropLastDataLen hfits.writable, ⟨_, rfl, rfl⟩, ?_⟩
  show ((total _ + streamTotal _ : Nat) : Int) ≤ maxLen
  rw [total_append, total_append]
  omega

theorem streamControl_full {length : Nat}
    (h : maxLen - length ≤ maxStreamControlFrameSize) (fs : List StreamControlFrame) :
    streamControl maxLen length fs = ([], true) := by
  cases fs with
  | nil => exact congrArg (Prod.mk []) (decide_eq_true h)
  | cons f more => exact if_pos h

theorem append_of_neg {fr : Framer} (h : maxLen < 0) : fr.append maxLen = some ⟨[], [], 0⟩ := by
  have hpath : pathResponse maxLen fr.pathResponses = [] := by
    cases fr.pathResponses with
    | nil => rfl
    | cons f fs => exact if_neg (by omega)
  have hstreams : streamsControl maxLen 0 fr.streamsWithControlFrames = [] := by
    have hfull : maxLen - (0 : Nat) ≤ maxStreamControlFrameSize := by
      rw [maxStreamControlFrameSize]
      omega
    cases fr.streamsWithControlFrames with
    | nil => rfl
    | cons str strs =>
      simp only [streamsControl, streamControl_full hfull]
      rfl
  have hother : otherControl maxLen 0 fr.controlFrames.reverse = [] := by
    cases fr.controlFrames.reverse with
    | nil => rfl
    | cons f fs => exact if_pos (by omega)
  have hcontrol : fr.appendControlFrames maxLen = [] := by
    have htotal : total [] = 0 := rfl
    simp only [appendControlFrames, hpath, htotal, hstreams, append_nil, hother]
  have hconn : connBlocked maxLen fr.newlyBlocked = [] := by
    cases fr.newlyBlocked with
    | none => rfl
    | some b => exact if_neg (by omega)
  have hroom : maxLen - (total [] : Nat) = maxLen := Int.sub_zero maxLen
  rw [append, hcontrol, hroom, popStreams_small (by rw [minStreamFrameSize]; omega), map_some]
  simp only [hconn]
  rfl

/-- What is added fits the room, if there is any. -/
theorem append_fits {fr : Framer} {a : Added} (h : fr.append maxLen = some a) :
    a.Fits (max 0 maxLen) := by
  by_cases h0 : 0 ≤ maxLen
  · rw [Int.max_eq_right h0]
    exact append_ok h h0
  · rw [append_of_neg (Int.not_le.mp h0)] at h
    cases h
    exact ⟨nofun, ⟨[], rfl, rfl⟩, Int.le_max_left 0 maxLen⟩

end Framer

end UQuic
