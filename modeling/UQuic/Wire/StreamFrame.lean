/-
# `UQuic.Wire.StreamFrame` — STREAM frames

`internal/wire/stream_frame.go`.  The low bits of the type say what a frame has: an
offset, a length field, and whether it ends the stream.  Without a length field the
data goes on to the end of the packet.

## What is proved

`append_eq`: a frame that `Append` accepts is written as its bytes, as many as `Length`
says.  `parse_bytes`: the parser takes these bytes for the frame.
-/
import UQuic.Wire.ControlFrames

namespace UQuic

open List

def maxPacketBufferSize : Nat := 1452

def minStreamFrameSize : Nat := 128

def minStreamFrameBufferSize : Nat := 128

namespace Wire

/-- `StreamFrame`. -/
structure StreamFrame where
  streamID : Nat
  offset : Nat
  data : List UInt8
  fin : Bool
  dataLenPresent : Bool
  deriving DecidableEq, Repr

namespace StreamFrame

/-- Why `Append` fails. -/
inductive AppendError
  /-- `StreamFrame: attempting to write empty frame without FIN`. -/
  | emptyWithoutFin
  /-- Panic: a number of more than 62 bits. -/
  | tooLarge
  deriving DecidableEq, Repr

def typeByte (f : StreamFrame) : UInt8 :=
  0x8 ^^^ (if f.fin then 0b1 else 0) ^^^ (if f.dataLenPresent then 0b10 else 0) ^^^
    (if f.offset ≠ 0 then 0b100 else 0)

def fields (f : StreamFrame) : List Nat :=
  [f.streamID] ++ (if f.offset ≠ 0 then [f.offset] else []) ++
    (if f.dataLenPresent then [f.data.length] else [])

def append (b : List UInt8) (f : StreamFrame) : Except AppendError (List UInt8) :=
  if f.data = [] ∧ f.fin = false then .error .emptyWithoutFin
  else
    match f.fields.foldlM QuicVarint.append (b ++ [f.typeByte]) with
    | none => .error .tooLarge
    | some b => .ok (b ++ f.data)

/-- `Length`, for numbers that fit. -/
def size (f : StreamFrame) : Nat := 1 + (f.fields.map QuicVarint.size).sum + f.data.length

def length (f : StreamFrame) : Option Nat := frameLength f.fields f.data.length

/-- The bytes of a frame that can be written. -/
def bytes (f : StreamFrame) : List UInt8 :=
  f.typeByte :: f.fields.flatMap QuicVarint.encode ++ f.data

/-- A frame that `Append` accepts. -/
structure Writable (f : StreamFrame) : Prop where
  nonempty : f.data ≠ [] ∨ f.fin = true
  streamID : f.streamID ≤ QuicVarint.maxVarInt8
  offset : f.offset ≤ QuicVarint.maxVarInt8
  data : f.data.length ≤ maxPacketBufferSize

theorem sum_size_ite (c : Prop) [Decidable c] (n : Nat) :
    ((if c then [n] else []).map QuicVarint.size).sum = if c then QuicVarint.size n else 0 := by
  split <;> rfl

theorem length_bytes (f : StreamFrame) : f.bytes.length = f.size := by
  simp only [bytes, size, List.length_append, length_cons, length_flatMap, QuicVarint.length_encode]
  rw [Nat.add_comm _ 1]

variable {f : StreamFrame}

theorem fields_le (h : f.Writable) : ∀ i ∈ f.fields, i ≤ QuicVarint.maxVarInt8 := by
  have hdata : f.data.length ≤ QuicVarint.maxVarInt8 := h.data.trans (by decide)
  intro i hi
  simp only [fields, mem_append, mem_singleton] at hi
  rcases hi with (rfl | hi) | hi
  · exact h.streamID
  · split at hi
    · rw [mem_singleton.mp hi]
      exact h.offset
    · exact nomatch hi
  · split at hi
    · rw [mem_singleton.mp hi]
      exact hdata
    · exact nomatch hi

theorem append_eq (h : f.Writable) (b : List UInt8) : f.append b = .ok (b ++ f.bytes) := by
  have hne : ¬ (f.data = [] ∧ f.fin = false) := by
    rintro ⟨hd, hf⟩
    rcases h.nonempty with h | h
    · exact h hd
    · rw [hf] at h
      cases h
  rw [append, if_neg hne, QuicVarint.foldlM_append _ _ (fields_le h)]
  simp only [bytes, append_assoc, cons_append, nil_append]

/-! ## Reading -/

/-- The offset of a frame that has one. -/
def offsetField (hasOffset : Bool) : FrameReader Nat := if hasOffset then varint else pure 0

/-- The data; without a length field, it is the rest of the packet. -/
def dataField (hasDataLen : Bool) : FrameReader (List UInt8) :=
  if hasDataLen then varint >>= Parser.take .eof else Parser.takeRest

/-- `parseStreamFrame`. -/
def parse (typ : Nat) : FrameReader StreamFrame := do
  let hasOffset := decide (0 < typ &&& 0b100)
  let fin := decide (0 < typ &&& 0b1)
  let hasDataLen := decide (0 < typ &&& 0b10)
  let streamID ← varint
  let offset ← offsetField hasOffset
  let data ← dataField hasDataLen
  -- a longer frame is copied to a buffer of the pool
  Parser.check (data.length < minStreamFrameBufferSize ∨ data.length ≤ maxPacketBufferSize) .eof
  Parser.check (offset + data.length ≤ maxByteCount) .streamOffset
  return ⟨streamID, offset, data, fin, hasDataLen⟩

/-- What the parser checks, of a frame that is not empty. -/
structure InRange (f : StreamFrame) : Prop extends Writable f where
  maxOffset : f.offset + f.data.length ≤ maxByteCount

/-- The type byte as the parser gets it. -/
def typ (f : StreamFrame) : Nat := f.typeByte.toNat

theorem typ_bits (f : StreamFrame) : f.typ ≤ 63 ∧ f.typ &&& 0xf8 = 0x8 ∧
    decide (0 < f.typ &&& 0b100) = decide (f.offset ≠ 0) ∧ decide (0 < f.typ &&& 0b1) = f.fin ∧
    decide (0 < f.typ &&& 0b10) = f.dataLenPresent := by
  obtain ⟨id, offset, data, fin, len⟩ := f
  by_cases h : offset = 0
  · cases fin <;> cases len <;> simp [typ, typeByte, h]
  · cases fin <;> cases len <;> simp [typ, typeByte, h]

theorem reads_offset {offset : Nat} (h : offset ≤ QuicVarint.maxVarInt8) (rest : List UInt8) :
    (offsetField (decide (offset ≠ 0))).Reads
      ((if offset ≠ 0 then [offset] else []).flatMap QuicVarint.encode) offset rest := by
  by_cases h0 : offset = 0
  · subst h0
    exact .pure
  · rw [offsetField, if_pos (decide_eq_true h0), if_pos h0, flatMap_singleton]
    exact reads_varint h

theorem reads_data {data : List UInt8} {len : Bool} (h : data.length ≤ QuicVarint.maxVarInt8)
    {rest : List UInt8} (hrest : len = true ∨ rest = []) : (dataField len).Reads
      ((if len then [data.length] else []).flatMap QuicVarint.encode ++ data) data rest := by
  cases len with
  | true =>
    rw [dataField, if_pos rfl, if_pos rfl, flatMap_singleton]
    exact (reads_varint h).bind .take
  | false =>
    obtain rfl : rest = [] := hrest.resolve_left (by rintro ⟨⟩)
    exact .takeRest

/-- **Round trip.**  The parser takes the bytes of a frame for the frame. -/
theorem parse_bytes (h : f.InRange) {rest : List UInt8}
    (hrest : f.dataLenPresent = true ∨ rest = []) :
    (parse f.typ).Reads (f.fields.flatMap QuicVarint.encode ++ f.data) f rest := by
  obtain ⟨-, -, hoff, hfin, hlen⟩ := f.typ_bits
  have hdata : f.data.length ≤ QuicVarint.maxVarInt8 := h.data.trans (by decide)
  rw [parse, hoff, hfin, hlen, fields, flatMap_append, flatMap_append,
    flatMap_singleton, append_assoc, append_assoc]
  refine (reads_varint h.streamID).bind ((reads_offset h.offset _).bind ?_)
  refine (reads_data hdata hrest).bind_end ?_
  exact (Parser.Reads.check (.inr h.data)).bind_nil (Parser.Reads.check h.maxOffset).bind_pure

end StreamFrame

end Wire

end UQuic
