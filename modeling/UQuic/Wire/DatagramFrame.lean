/-
# `UQuic.Wire.DatagramFrame` — DATAGRAM frames

`internal/wire/datagram_frame.go`.  A DATAGRAM frame has a length field or takes the
rest of the packet.

`MaxDataLen` answers how much data fits a frame of a given size.  It takes the length
field for one byte and, if the data needs more, gives one byte back.
-/
import UQuic.Wire.ControlFrames

namespace UQuic

/-- `wire.DatagramFrame`. -/
structure DatagramFrame where
  dataLenPresent : Bool
  data : List UInt8
  deriving DecidableEq, Repr, Inhabited

namespace DatagramFrame

/-- `parseDatagramFrame` of what follows the type, with the number of bytes read. -/
def parse (b : List UInt8) (typ : Nat) : Option (DatagramFrame × Nat) :=
  if typ % 2 = 1 then
    (QuicVarint.parse b).bind fun (length, l) =>
      if (b.drop l).length < length then none
      else some (⟨true, (b.drop l).take length⟩, l + length)
  else some (⟨false, b⟩, b.length)

/-- The same, as a parser. -/
def reader (typ : Nat) : Wire.FrameReader DatagramFrame :=
  .ofOption .eof fun b => (parse b typ).map fun r => (r.1, b.drop r.2)

def fields (f : DatagramFrame) : List Nat := if f.dataLenPresent then [f.data.length] else []

/-- What `Append` writes after the type. -/
def body (f : DatagramFrame) : List UInt8 :=
  if f.dataLenPresent then QuicVarint.encode f.data.length ++ f.data else f.data

def typ (f : DatagramFrame) : Nat := if f.dataLenPresent then 0x31 else 0x30

def append (b : List UInt8) (f : DatagramFrame) : Option (List UInt8) :=
  Wire.appendFrame b f.typ f.fields f.data

def length (f : DatagramFrame) : Option Nat := Wire.frameLength f.fields f.data.length

/-- `Length`, for data whose length has an encoding. -/
def size (f : DatagramFrame) : Nat :=
  1 + f.data.length + if f.dataLenPresent then QuicVarint.size f.data.length else 0

/-- `MaxDataLen`, for a size that has an encoding. -/
def maxDataLen (f : DatagramFrame) (maxSize : Int) : Int :=
  let headerLen : Int := if f.dataLenPresent then 2 else 1
  if maxSize < headerLen then 0
  else if f.dataLenPresent ∧ QuicVarint.size (maxSize - headerLen).toNat ≠ 1 then
    maxSize - headerLen - 1
  else maxSize - headerLen

theorem parse_body (f : DatagramFrame) {rest : List UInt8}
    (hlen : f.data.length ≤ QuicVarint.maxVarInt8) (hrest : f.dataLenPresent = false → rest = []) :
    parse (f.body ++ rest) f.typ = some (f, f.body.length) := by
  obtain ⟨present, data⟩ := f
  cases present with
  | false =>
    rw [hrest rfl, List.append_nil]
    show parse data 0x30 = some (⟨false, data⟩, data.length)
    exact if_neg (by decide)
  | true =>
    have hlen : data.length ≤ QuicVarint.maxVarInt8 := hlen
    show parse (QuicVarint.encode data.length ++ data ++ rest) 0x31 =
      some (⟨true, data⟩, (QuicVarint.encode data.length ++ data).length)
    rw [parse, if_pos (by decide), List.append_assoc, QuicVarint.parse_encode hlen,
      Option.bind_some, ← QuicVarint.length_encode]
    dsimp only
    rw [List.drop_left, List.length_append, if_neg (by omega), List.take_left, List.length_append]

/-- A frame with its type takes the bytes that `Length` says. -/
theorem length_body (f : DatagramFrame) : f.body.length + 1 = f.size := by
  rw [body, size]
  split
  · rw [List.length_append, QuicVarint.length_encode]
    omega
  · omega

end DatagramFrame

end UQuic
