/-
# `UQuic.Wire.Frame` — the frames of an Initial packet

`internal/wire/crypto_frame.go`, and the part of `internal/wire/frame_parser.go`
that reads what these packets carry: PADDING, PING, ACK and CRYPTO.  The parser of
the source skips PADDING; here each byte of it is a frame of its own, so that a
payload can be accounted for byte by byte.

`none` is a panic (a number of more than 62 bits) when a frame is written, and an
error when one is read.

## What is proved

    Reads fs bytes    the parser reads `bytes` as the frames `fs`, whatever follows

for the bytes of each kind of frame, and for one sequence of frames after another
(`Reads.append`).
-/
import UQuic.Wire.AckEncoding

namespace UQuic.Wire

open List Option QuicVarint
open QuicVarint (maxVarInt8)

/-! ## CRYPTO frames -/

/-- `CryptoFrame`. -/
structure CryptoFrame where
  offset : Nat
  data : List UInt8
  deriving DecidableEq, Repr

namespace CryptoFrame

def append (b : List UInt8) (f : CryptoFrame) : Option (List UInt8) :=
  (QuicVarint.append (b ++ [0x6]) f.offset).bind fun b =>
    (QuicVarint.append b f.data.length).map (· ++ f.data)

def length (f : CryptoFrame) : Option Nat :=
  (QuicVarint.len f.offset).bind fun l =>
    (QuicVarint.len f.data.length).map fun m => 1 + l + m + f.data.length

def maxDataLen (f : CryptoFrame) (maxSize : Int) : Option Int :=
  (QuicVarint.len f.offset).bind fun l =>
    let headerLen : Int := 1 + l + 1
    if maxSize < headerLen then some 0
    else
      let maxDataLen := maxSize - headerLen
      (QuicVarint.len maxDataLen.toNat).map fun m =>
        if m ≠ 1 then maxDataLen - 1 else maxDataLen

/-- The outcome of `MaybeSplitOffFrame`. -/
inductive Split
  /-- The whole frame fits. -/
  | fits
  /-- Not even one byte of it fits. -/
  | tooSmall
  /-- The frame that was split off, and what is left. -/
  | split (new left : CryptoFrame)
  deriving DecidableEq, Repr

/-- `MaybeSplitOffFrame`; `none` is also the panic of a negative length. -/
def maybeSplitOffFrame (f : CryptoFrame) (maxSize : Int) : Option Split :=
  f.length.bind fun l =>
    if l ≤ maxSize then some .fits
    else (f.maxDataLen maxSize).bind fun n =>
      if n = 0 then some .tooSmall
      else if f.data.length < n then none
      else some (.split ⟨f.offset, f.data.take n.toNat⟩ ⟨f.offset + n.toNat, f.data.drop n.toNat⟩)

/-- `parseCryptoFrame` of what follows the type; with what is left after the frame. -/
def parse (b : List UInt8) : Option (CryptoFrame × List UInt8) :=
  (QuicVarint.read b).bind fun (offset, b) =>
    (QuicVarint.read b).bind fun (dataLen, b) =>
      if b.length < dataLen then none
      else some (⟨offset, b.take dataLen⟩, b.drop dataLen)

/-- The offsets a frame carries. -/
def Covers (f : CryptoFrame) (o : Nat) : Prop := f.offset ≤ o ∧ o < f.offset + f.data.length

instance (f : CryptoFrame) (o : Nat) : Decidable (f.Covers o) :=
  inferInstanceAs (Decidable (_ ∧ _))

/-- The bytes of a frame whose offset and length have an encoding. -/
def bytes (f : CryptoFrame) : List UInt8 :=
  0x6 :: (QuicVarint.encode f.offset ++ (QuicVarint.encode f.data.length ++ f.data))

/-- The offset and the length of the frame have an encoding. -/
def Encodable (f : CryptoFrame) : Prop := f.offset ≤ maxVarInt8 ∧ f.data.length ≤ maxVarInt8

variable {f : CryptoFrame}

theorem length_bytes (f : CryptoFrame) : f.bytes.length =
    1 + QuicVarint.size f.offset + QuicVarint.size f.data.length + f.data.length := by
  simp only [bytes, length_cons, List.length_append, length_encode]
  omega

/-- The header of a CRYPTO frame as `MaxDataLen` counts it. -/
def headerLen (f : CryptoFrame) : Nat := 1 + QuicVarint.size f.offset + 1

theorem length_bytes_eq (f : CryptoFrame) : f.bytes.length =
    f.headerLen + f.data.length + QuicVarint.excess true f.data.length := by
  have hpos := size_pos f.data.length
  rw [length_bytes, headerLen, QuicVarint.excess, if_pos rfl]
  omega

theorem maxDataLen_eq_some {maxSize n : Int} (h : f.maxDataLen maxSize = some n) :
    n = QuicVarint.room f.headerLen true maxSize := by
  obtain ⟨l, hl, h⟩ := Option.bind_eq_some_iff.mp h
  obtain rfl := eq_size_of_len hl
  dsimp only at h
  rw [QuicVarint.room]
  split_ifs at h with hsmall
  · exact (Option.some.inj h).symm.trans (if_pos hsmall).symm
  · obtain ⟨m, hm, rfl⟩ := Option.map_eq_some_iff.mp h
    obtain rfl := eq_size_of_len hm
    refine .trans ?_ (if_neg hsmall).symm
    simp only [true_and]
    rfl

/-- A frame is written exactly when it is encodable, and then as its bytes. -/
theorem append_eq_some_iff (b c : List UInt8) :
    f.append b = some c ↔ f.Encodable ∧ c = b ++ f.bytes := by
  simp only [append, QuicVarint.append, Encodable]
  by_cases h1 : f.offset ≤ maxVarInt8
  · by_cases h2 : f.data.length ≤ maxVarInt8
    · simp [h1, h2, bytes, eq_comm]
    · simp [h1, h2]
  · simp [h1]

theorem length_eq_some_iff (n : Nat) : f.length = some n ↔ f.Encodable ∧ n = f.bytes.length := by
  simp only [length, QuicVarint.len, Encodable, length_bytes]
  by_cases h1 : f.offset ≤ maxVarInt8
  · by_cases h2 : f.data.length ≤ maxVarInt8
    · simp [h1, h2, eq_comm]
    · simp [h1, h2]
  · simp [h1]

theorem parse_bytes (h : f.Encodable) (rest : List UInt8) :
    parse (QuicVarint.encode f.offset ++ (QuicVarint.encode f.data.length ++ f.data) ++ rest) =
      some (f, rest) := by
  rw [parse, append_assoc, read_encode h.1]
  simp only [bind_some, append_assoc]
  rw [read_encode h.2]
  simp only [bind_some]
  rw [if_neg (by rw [List.length_append]; omega), take_left, drop_left]

end CryptoFrame

/-- Frames that follow each other without a gap from `offset`. -/
def Consecutive : Nat → List CryptoFrame → Prop
  | _, [] => True
  | offset, f :: fs => f.offset = offset ∧ Consecutive (offset + f.data.length) fs

/-! ## The frame parser -/

/-- The frames an Initial packet carries. -/
inductive Frame
  | padding
  | ping
  | ack (f : AckFrame)
  | crypto (f : CryptoFrame)
  deriving DecidableEq, Repr

namespace Frame

/-- `FrameParser.parseFrame` by the frame type, at the Initial encryption level. -/
def parseTyped (b : List UInt8) : Nat → Option (Frame × List UInt8)
  | 0x0 => some (.padding, b)
  | 0x1 => some (.ping, b)
  | 0x2 => (AckFrame.parse 0x2 AckFrame.ackDelayExponent b).toOption.map fun r => (.ack r.1, r.2)
  | 0x3 => (AckFrame.parse 0x3 AckFrame.ackDelayExponent b).toOption.map fun r => (.ack r.1, r.2)
  | 0x6 => (CryptoFrame.parse b).map fun r => (.crypto r.1, r.2)
  | _ => none

/-- `FrameParser.ParseNext`, with what is left after the frame. -/
def parseNext (b : List UInt8) : Option (Frame × List UInt8) :=
  (QuicVarint.read b).bind fun r => parseTyped r.2 r.1

/-- All the frames of a payload, at most as many as the first argument says. -/
def parseUpTo : Nat → List UInt8 → Option (List Frame)
  | _, [] => some []
  | 0, _ :: _ => none
  | n + 1, b => (parseNext b).bind fun r => (parseUpTo n r.2).map (r.1 :: ·)

/-- All the frames of a payload. -/
def parseAll (b : List UInt8) : Option (List Frame) := parseUpTo b.length b

def crypto? : Frame → Option CryptoFrame
  | .crypto f => some f
  | _ => none

end Frame

open UQuic.Wire.Frame (parseNext parseUpTo parseAll)

/-- The parser reads `bytes` as the frames `fs`, whatever follows. -/
structure Reads (fs : List Frame) (bytes : List UInt8) : Prop where
  le : fs.length ≤ bytes.length
  parse : ∀ n rest, parseUpTo (fs.length + n) (bytes ++ rest) = (parseUpTo n rest).map (fs ++ ·)

namespace Reads

variable {fs gs : List Frame} {f : Frame} {b c : List UInt8}

theorem nil : Reads [] [] where
  le := Nat.le_refl 0
  parse n rest := by
    simp only [length_nil, Nat.zero_add, nil_append, Option.map_id_fun', id_eq]

theorem append (hf : Reads fs b) (hg : Reads gs c) : Reads (fs ++ gs) (b ++ c) where
  le := by
    have h1 := hf.le
    have h2 := hg.le
    simp only [List.length_append]
    omega
  parse n rest := by
    rw [List.length_append, append_assoc, Nat.add_assoc, hf.parse, hg.parse, Option.map_map]
    simp only [Function.comp_def, append_assoc]

theorem single (t : UInt8) (h : ∀ rest, parseNext (t :: b ++ rest) = some (f, rest)) :
    Reads [f] (t :: b) where
  le := Nat.succ_le_succ (Nat.zero_le _)
  parse n rest := by
    rw [length_singleton, Nat.add_comm, cons_append, parseUpTo, ← cons_append, h rest, bind_some]
    · rfl
    · exact cons_ne_nil _ _

theorem flatMap {α : Type} (g : α → List UInt8) (k : α → List Frame) : ∀ (l : List α),
    (∀ x ∈ l, Reads (k x) (g x)) → Reads (l.flatMap k) (l.flatMap g)
  | [], _ => nil
  | x :: l, h => by
    have hx := h x mem_cons_self
    have hl := flatMap g k l fun y hy => h y (mem_cons_of_mem x hy)
    exact hx.append hl

/-- The payload is these frames. -/
theorem parseAll_eq (h : Reads fs b) : parseAll b = some fs := by
  obtain ⟨n, hn⟩ := Nat.exists_eq_add_of_le h.le
  have := h.parse n []
  rw [append_nil] at this
  rw [parseAll, hn, this]
  cases n <;> simp [parseUpTo]

theorem read_type {t : Nat} (ht : t ≤ 63) (rest : List UInt8) :
    QuicVarint.read (UInt8.ofNat t :: rest) = some (t, rest) := by
  have := read_encode (i := t) (ht.trans (by decide)) rest
  rwa [QuicVarint.encode, if_pos ht] at this

theorem padding : Reads [.padding] [0x0] :=
  single 0x0 fun rest => by
    rw [parseNext, cons_append, show (0x0 : UInt8) = .ofNat 0 from rfl,
      read_type (by decide), bind_some, nil_append]
    rfl

theorem ping : Reads [.ping] [0x1] :=
  single 0x1 fun rest => by
    rw [parseNext, cons_append, show (0x1 : UInt8) = .ofNat 1 from rfl,
      read_type (by decide), bind_some, nil_append]
    rfl

theorem crypto {f : CryptoFrame} (h : f.Encodable) : Reads [.crypto f] f.bytes :=
  single 0x6 fun rest => by
    rw [parseNext, cons_append, show (0x6 : UInt8) = .ofNat 6 from rfl,
      read_type (by decide), bind_some]
    show (CryptoFrame.parse _).map _ = _
    rw [CryptoFrame.parse_bytes h rest]
    rfl

theorem ack {f : AckFrame} (h : f.Sendable) : ∃ g bytes, (∀ b, f.append b = some (b ++ bytes)) ∧
    f.length = some bytes.length ∧ Reads [.ack g] bytes := by
  obtain ⟨body, k, -, -, happ, hlen, hread⟩ := h.parse_append AckFrame.ackDelayExponent
  refine ⟨_, _, happ, hlen, single (f := .ack (f.readAs AckFrame.ackDelayExponent (k + 1))) _ ?_⟩
  intro rest
  have hparse := hread rest
  cases hecn : f.hasECN with
  | true =>
    rw [hecn] at hparse
    rw [parseNext, cons_append, if_pos rfl, show (0x3 : UInt8) = .ofNat 3 from rfl,
      read_type (by decide), bind_some]
    show (AckFrame.parse 0x3 _ _).toOption.map _ = _
    rw [show AckFrame.parse 0x3 _ _ = _ from hparse]
    rfl
  | false =>
    rw [hecn] at hparse
    rw [parseNext, cons_append, if_neg (by rintro ⟨⟩), show (0x2 : UInt8) = .ofNat 2 from rfl,
      read_type (by decide), bind_some]
    show (AckFrame.parse 0x2 _ _).toOption.map _ = _
    rw [show AckFrame.parse 0x2 _ _ = _ from hparse]
    rfl

end Reads

end UQuic.Wire
