/-
# `UQuic.Wire.Header` — packet headers

`ExtendedHeader.Append`, `GetLength` and `ParsePacket` of `internal/wire`, with the
short header.  A long header is

    first byte | version | connection IDs | token (Initial only) | length | packet number

and `ParsePacket` cuts the packet off a datagram by the length field.  It is called
before header protection is removed, when the low bits of the first byte and the
packet number are still masked.

## What is proved

`parsePacket_append`: whatever mask was applied to the first byte, `ParsePacket`
recovers the header up to the packet number and cuts the datagram where the length
field says.
-/
import UQuic.Protocol
import UQuic.QuicVarint

namespace UQuic.Wire

open List Option

def maxConnIDLen : Nat := 20

/-- `protocol.ConnectionID`, which has room for 20 bytes. -/
structure ConnectionID where
  bytes : List UInt8
  le : bytes.length ≤ maxConnIDLen
  deriving DecidableEq, Repr

def ConnectionID.empty : ConnectionID := ⟨[], Nat.zero_le _⟩

def ConnectionID.single (b : UInt8) : ConnectionID := ⟨[b], Nat.le_add_left 1 19⟩

/-- The versions in `protocol.SupportedVersions`. -/
inductive Version
  | v1
  | v2
  deriving DecidableEq, Repr

def Version.number : Version → Nat
  | .v1 => 0x1
  | .v2 => 0x6b3343cf

/-- The four bytes `PutUint32` writes. -/
def putUint32 (n : Nat) : List UInt8 :=
  [.ofNat (n >>> 24), .ofNat (n >>> 16), .ofNat (n >>> 8), .ofNat n]

/-- `protocol.PacketType`. -/
inductive PacketType
  | initial
  | retry
  | handshake
  | zeroRTT
  deriving DecidableEq, Repr

/-- `protocol.PacketNumberLen`. -/
inductive PacketNumberLen
  | one
  | two
  | three
  | four
  deriving DecidableEq, Repr

def PacketNumberLen.toNat : PacketNumberLen → Nat
  | .one => 1
  | .two => 2
  | .three => 3
  | .four => 4

/-- `appendPacketNumber`: the low bytes of the number. -/
def packetNumberBytes (pn : Nat) : PacketNumberLen → List UInt8
  | .one => [.ofNat pn]
  | .two => [.ofNat (pn >>> 8), .ofNat pn]
  | .three => [.ofNat (pn >>> 16), .ofNat (pn >>> 8), .ofNat pn]
  | .four => putUint32 pn

theorem length_packetNumberBytes (pn : Nat) (len : PacketNumberLen) :
    (packetNumberBytes pn len).length = len.toNat := by
  cases len <;> rfl

/-! ## Long headers -/

/-- `ExtendedHeader`, the fields that are written. -/
structure ExtendedHeader where
  type : PacketType
  version : Version
  srcConnectionID : ConnectionID
  destConnectionID : ConnectionID
  token : List UInt8
  length : Nat
  packetNumber : Nat
  packetNumberLen : PacketNumberLen

namespace ExtendedHeader

def typeBits : Version → PacketType → UInt8
  | .v2, .initial => 0b01
  | .v2, .zeroRTT => 0b10
  | .v2, .handshake => 0b11
  | .v2, .retry => 0b00
  | .v1, .initial => 0b00
  | .v1, .zeroRTT => 0b01
  | .v1, .handshake => 0b10
  | .v1, .retry => 0b11

def firstByte (h : ExtendedHeader) : UInt8 :=
  let b := (0xc0 : UInt8) ||| typeBits h.version h.type <<< 4
  if h.type = .retry then b else b ||| .ofNat (h.packetNumberLen.toNat - 1)

/-- The version and the connection IDs. -/
def invariantBytes (h : ExtendedHeader) : List UInt8 :=
  putUint32 h.version.number ++
    (.ofNat h.destConnectionID.bytes.length :: h.destConnectionID.bytes) ++
    (.ofNat h.srcConnectionID.bytes.length :: h.srcConnectionID.bytes)

/-- The token, which only Initial packets have. -/
def appendToken (h : ExtendedHeader) (b : List UInt8) : Option (List UInt8) :=
  if h.type = .initial then
    (QuicVarint.append b h.token.length).map (· ++ h.token)
  else some b

/-- `Append` without a buffer before it; `none` is the panic of a number that is too large.
The errors for a connection ID or a packet number that is too long cannot occur. -/
def append (h : ExtendedHeader) : Option (List UInt8) :=
  if h.type = .retry then some (h.firstByte :: h.invariantBytes ++ h.token)
  else
    (h.appendToken (h.firstByte :: h.invariantBytes)).bind fun b =>
      (QuicVarint.appendWithLen b h.length 2).map
        (· ++ packetNumberBytes h.packetNumber h.packetNumberLen)

def getLength (h : ExtendedHeader) : Option Nat :=
  let length := 1 + 4 + 1 + h.destConnectionID.bytes.length + 1 + h.srcConnectionID.bytes.length +
    h.packetNumberLen.toNat + 2
  if h.type = .initial then
    (QuicVarint.len h.token.length).map fun l => length + (l + h.token.length)
  else some length

end ExtendedHeader

/-! ## Short headers -/

/-- `AppendShortHeader` without a buffer before it. -/
def shortHeaderBytes (connID : ConnectionID) (pn : Nat) (pnLen : PacketNumberLen)
    (keyPhaseOne : Bool) : List UInt8 :=
  let typeByte := (0x40 : UInt8) ||| .ofNat (pnLen.toNat - 1)
  (if keyPhaseOne then typeByte ||| 0x4 else typeByte) :: connID.bytes ++
    packetNumberBytes pn pnLen

def shortHeaderLen (dest : ConnectionID) (pnLen : PacketNumberLen) : Nat :=
  1 + dest.bytes.length + pnLen.toNat

theorem length_shortHeaderBytes (connID : ConnectionID) (pn : Nat) (pnLen : PacketNumberLen)
    (kp : Bool) : (shortHeaderBytes connID pn pnLen kp).length = shortHeaderLen connID pnLen := by
  simp only [shortHeaderBytes, shortHeaderLen, List.length_append, length_cons,
    length_packetNumberBytes]
  omega

/-! ## Parsing a long header -/

/-- `Header`, which is parsed up to the packet number. -/
structure Header where
  /-- `none` for a version negotiation packet. -/
  type : Option PacketType
  version : Nat
  srcConnectionID : List UInt8
  destConnectionID : List UInt8
  length : Nat
  token : List UInt8
  parsedLen : Nat
  deriving DecidableEq, Repr

/-- The errors of `ParsePacket`. -/
inductive HeaderError
  /-- `not a long header packet`. -/
  | notLongHeader
  /-- `io.EOF`. -/
  | eof
  /-- `not a QUIC packet`. -/
  | notQUIC
  /-- `ErrInvalidConnectionIDLen`. -/
  | invalidConnectionIDLen
  /-- `ErrUnsupportedVersion`. -/
  | unsupportedVersion
  /-- `packet length (%d bytes) is smaller than the expected length (%d bytes)`. -/
  | packetLength (got expected : Nat)
  deriving DecidableEq, Repr

namespace Header

/-- A connection ID after the byte with its length. -/
def readConnectionID : List UInt8 → Except HeaderError (List UInt8 × List UInt8)
  | [] => .error .eof
  | len :: b =>
    if maxConnIDLen < len.toNat then .error .invalidConnectionIDLen
    else if b.length < len.toNat then .error .eof
    else .ok (b.take len.toNat, b.drop len.toNat)

/-- The packet type, by version. -/
def packetType (version : Nat) (typeByte : UInt8) : Option PacketType :=
  if version = Version.v2.number then
    match (typeByte >>> 4 &&& 0b11).toNat with
    | 0b00 => some .retry
    | 0b01 => some .initial
    | 0b10 => some .zeroRTT
    | _ => some .handshake
  else
    match (typeByte >>> 4 &&& 0b11).toNat with
    | 0b00 => some .initial
    | 0b01 => some .zeroRTT
    | 0b10 => some .handshake
    | _ => some .retry

/-- The token of an Initial packet; other packets have none. -/
def readToken (type : Option PacketType) (b : List UInt8) :
    Except HeaderError (List UInt8 × List UInt8) :=
  if type = some .initial then
    match QuicVarint.read b with
    | none => .error .eof
    | some (tokenLen, b) =>
      if b.length < tokenLen then .error .eof else .ok (b.take tokenLen, b.drop tokenLen)
  else .ok ([], b)

/-- The end of `parseLongHeader`, after the connection IDs: the token and the length.
`startLen` is the length of the whole datagram. -/
def readRest (h : Header) (startLen : Nat) (b : List UInt8) : Except HeaderError Header :=
  if h.type = some .retry then
    if b.length ≤ 16 then .error .eof
    else .ok { h with token := b.take (b.length - 16), parsedLen := startLen }
  else
    (readToken h.type b).bind fun (token, b) =>
      match QuicVarint.read b with
      | none => .error .eof
      | some (length, b) =>
        .ok { h with token := token, length := length, parsedLen := startLen - b.length }

/-- `parseLongHeader`, after the first byte. -/
def parseLongHeader (typeByte : UInt8) (startLen : Nat) : List UInt8 → Except HeaderError Header
  | v0 :: v1 :: v2 :: v3 :: len :: b =>
    let version := v0.toNat <<< 24 + v1.toNat <<< 16 + v2.toNat <<< 8 + v3.toNat
    if version ≠ 0 ∧ typeByte &&& 0x40 = 0 then .error .notQUIC
    else
      (readConnectionID (len :: b)).bind fun (dest, b) => (readConnectionID b).bind fun (src, b) =>
        let h : Header := ⟨none, version, src, dest, 0, [], startLen - b.length⟩
        if version = 0 then .ok h
        else if version ≠ Version.v1.number ∧ version ≠ Version.v2.number then
          .error .unsupportedVersion
        else readRest { h with type := packetType version typeByte } startLen b
  | _ => .error .eof

end Header

def isLongHeaderPacket (firstByte : UInt8) : Bool := firstByte &&& 0x80 ≠ 0

/-- `ParsePacket`: the header, the packet and what follows it in the datagram. -/
def parsePacket : List UInt8 → Except HeaderError (Header × List UInt8 × List UInt8)
  | [] => .error .notLongHeader
  | typeByte :: b =>
    if isLongHeaderPacket typeByte then
      (Header.parseLongHeader typeByte (b.length + 1) b).bind fun h =>
        let packetLen := h.parsedLen + h.length
        if b.length + 1 < packetLen then
          .error (.packetLength (b.length + 1 - h.parsedLen) h.length)
        else .ok (h, (typeByte :: b).take packetLen, (typeByte :: b).drop packetLen)
    else .error .notLongHeader

/-! ## A written header is read back -/

section RoundTrip

variable (h : ExtendedHeader)

/-- The bytes between the first one and the packet number: what header protection leaves
alone. -/
def ExtendedHeader.clearBytes : List UInt8 :=
  h.invariantBytes ++
    (if h.type = .initial then QuicVarint.encode h.token.length ++ h.token else []) ++
    QuicVarint.encodeWithLen h.length 2

/-- What `ParsePacket` recovers. -/
def ExtendedHeader.parsed : Header where
  type := some h.type
  version := h.version.number
  srcConnectionID := h.srcConnectionID.bytes
  destConnectionID := h.destConnectionID.bytes
  length := h.length
  token := if h.type = .initial then h.token else []
  parsedLen := h.clearBytes.length + 1

/-- A header that is written has numbers that fit, and these bytes. -/
theorem append_eq_some {b : List UInt8} (hretry : h.type ≠ .retry) (hb : h.append = some b) :
    (h.length ≤ QuicVarint.maxVarInt8 ∧ QuicVarint.size h.length ≤ 2) ∧
      (h.type = .initial → h.token.length ≤ QuicVarint.maxVarInt8) ∧
      b = h.firstByte :: h.clearBytes ++ packetNumberBytes h.packetNumber h.packetNumberLen := by
  rw [ExtendedHeader.append, if_neg hretry] at hb
  obtain ⟨c, hc, hb⟩ := bind_eq_some_iff.mp hb
  obtain ⟨d, hd, rfl⟩ := map_eq_some_iff.mp hb
  rw [QuicVarint.appendWithLen_eq (.inr (.inl rfl))] at hd
  split_ifs at hd with hfits
  cases hd
  refine ⟨hfits, ?_, ?_⟩
  · intro hi
    rw [ExtendedHeader.appendToken, if_pos hi] at hc
    obtain ⟨e, he, -⟩ := map_eq_some_iff.mp hc
    exact (QuicVarint.append_eq_some he).1
  · rw [ExtendedHeader.appendToken] at hc
    rw [ExtendedHeader.clearBytes]
    split at hc
    · obtain ⟨e, he, rfl⟩ := map_eq_some_iff.mp hc
      rw [(QuicVarint.append_eq_some he).2, if_pos (by assumption)]
      simp only [cons_append, append_assoc]
    · cases hc
      rw [if_neg (by assumption)]
      simp only [cons_append, append_assoc, nil_append]

/-- The header takes the bytes that `GetLength` says. -/
theorem length_append {b : List UInt8} (hretry : h.type ≠ .retry) (hb : h.append = some b) :
    h.getLength = some b.length := by
  obtain ⟨hlen, htok, rfl⟩ := append_eq_some h hretry hb
  have htwo := (QuicVarint.parse_encodeWithLen (.inr (.inl rfl)) hlen.1 hlen.2 []).1
  rw [ExtendedHeader.getLength]
  split_ifs with hi
  · rw [QuicVarint.len_eq (htok hi)]
    simp only [ExtendedHeader.clearBytes, ExtendedHeader.invariantBytes, putUint32, hi, if_true,
      length_cons, List.length_append, length_nil, QuicVarint.length_encode, htwo,
      length_packetNumberBytes, map_some]
    congr 1
    omega
  · simp only [ExtendedHeader.clearBytes, ExtendedHeader.invariantBytes, putUint32, hi, if_false,
      length_cons, List.length_append, length_nil, htwo, length_packetNumberBytes]
    congr 1
    omega

theorem readConnectionID_bytes (c : ConnectionID) (rest : List UInt8) :
    Header.readConnectionID (.ofNat c.bytes.length :: c.bytes ++ rest) = .ok (c.bytes, rest) := by
  have hlen : (UInt8.ofNat c.bytes.length).toNat = c.bytes.length :=
    UInt8.toNat_ofNat_of_lt' (c.le.trans_lt (by decide))
  rw [cons_append, Header.readConnectionID, hlen, if_neg (Nat.not_lt.mpr c.le),
    if_neg (by rw [List.length_append]; omega), take_left, drop_left]

theorem version_number (v : Version) :
    (UInt8.ofNat (v.number >>> 24)).toNat <<< 24 + (UInt8.ofNat (v.number >>> 16)).toNat <<< 16 +
      (UInt8.ofNat (v.number >>> 8)).toNat <<< 8 + (UInt8.ofNat v.number).toNat = v.number := by
  cases v <;> rfl

/-- What is left of the first byte under header protection, which masks its low half. -/
def ExtendedHeader.Masked (b : UInt8) : Prop := b >>> 4 = h.firstByte >>> 4

variable {h} {b : UInt8}

theorem masked_xor (m : UInt8) : h.Masked (h.firstByte ^^^ (m &&& 0xf)) := by
  rw [ExtendedHeader.Masked, UInt8.shiftRight_xor, UInt8.shiftRight_and,
    show (0xf : UInt8) >>> 4 = 0 by decide, UInt8.and_zero, UInt8.xor_zero]

variable (hretry : h.type ≠ .retry)

include hretry

theorem firstByte_shiftRight :
    h.firstByte >>> 4 = (0xc : UInt8) ||| ExtendedHeader.typeBits h.version h.type := by
  rw [ExtendedHeader.firstByte, if_neg hretry]
  cases h.version <;> cases h.type <;> cases h.packetNumberLen <;> rfl

theorem packetType_masked (hb : h.Masked b) :
    Header.packetType h.version.number b = some h.type := by
  rw [Header.packetType, hb, firstByte_shiftRight hretry]
  cases h.version <;> cases h.type <;> rfl

/-- The two highest bits are set. -/
theorem highBits_masked (hb : h.Masked b) : isLongHeaderPacket b = true ∧ b &&& 0x40 ≠ 0 := by
  have hbits := hb.trans (firstByte_shiftRight hretry)
  have h80 : (b &&& 0x80) >>> 4 ≠ 0 := by
    rw [UInt8.shiftRight_and, hbits]
    cases h.version <;> cases h.type <;> decide
  have h40 : (b &&& 0x40) >>> 4 ≠ 0 := by
    rw [UInt8.shiftRight_and, hbits]
    cases h.version <;> cases h.type <;> decide
  refine ⟨decide_eq_true fun h0 => h80 ?_, fun h0 => h40 ?_⟩
  · rw [h0]
    rfl
  · rw [h0]
    rfl

/-- The token and the length are read back. -/
theorem readRest_eq (hlen : h.length ≤ QuicVarint.maxVarInt8 ∧ QuicVarint.size h.length ≤ 2)
    (htok : h.type = .initial → h.token.length ≤ QuicVarint.maxVarInt8) (g : Header)
    (hg : g.type = some h.type) (startLen : Nat) (rest : List UInt8) :
    Header.readRest g startLen
      ((if h.type = .initial then QuicVarint.encode h.token.length ++ h.token else []) ++
        (QuicVarint.encodeWithLen h.length 2 ++ rest)) =
      .ok { g with
        token := if h.type = .initial then h.token else []
        length := h.length
        parsedLen := startLen - rest.length } := by
  have hread : QuicVarint.read (QuicVarint.encodeWithLen h.length 2 ++ rest) =
      some (h.length, rest) := by
    obtain ⟨htwo, hparse⟩ := QuicVarint.parse_encodeWithLen (.inr (.inl rfl)) hlen.1 hlen.2 rest
    rw [QuicVarint.read, hparse, map_some]
    nth_rewrite 2 [← htwo]
    rw [drop_left]
  have hg' : g.type ≠ some .retry := by
    rw [hg]
    exact fun h => hretry (Option.some.inj h)
  rw [Header.readRest, if_neg hg', Header.readToken, hg]
  by_cases hi : h.type = .initial
  · rw [if_pos (congrArg some hi), if_pos hi, append_assoc, QuicVarint.read_encode (htok hi)]
    simp only
    rw [if_neg (by rw [List.length_append]; omega), take_left, drop_left]
    simp only [Except.bind, hread, if_pos hi]
  · rw [if_neg (fun h => hi (Option.some.inj h)), if_neg hi, nil_append]
    simp only [Except.bind, hread, if_neg hi]

/-- The clear bytes of a header are parsed, whatever follows them. -/
theorem parseLongHeader_clearBytes
    (hlen : h.length ≤ QuicVarint.maxVarInt8 ∧ QuicVarint.size h.length ≤ 2)
    (htok : h.type = .initial → h.token.length ≤ QuicVarint.maxVarInt8) (hb : h.Masked b)
    (rest : List UInt8) :
    Header.parseLongHeader b ((h.clearBytes ++ rest).length + 1) (h.clearBytes ++ rest) =
      .ok h.parsed := by
  obtain ⟨-, h40⟩ := highBits_masked hretry hb
  have hparsed : (h.clearBytes ++ rest).length + 1 - rest.length = h.clearBytes.length + 1 := by
    rw [List.length_append]
    omega
  obtain ⟨startLen, hstart⟩ : ∃ n, n = (h.clearBytes ++ rest).length + 1 := ⟨_, rfl⟩
  rw [← hstart] at hparsed ⊢
  simp only [ExtendedHeader.clearBytes, ExtendedHeader.invariantBytes, putUint32,
    append_assoc, cons_append, nil_append, Header.parseLongHeader, version_number]
  rw [if_neg (fun h => h40 h.2), ← cons_append, readConnectionID_bytes]
  simp only [Except.bind]
  rw [← cons_append, readConnectionID_bytes]
  simp only [packetType_masked hretry hb]
  rw [if_neg (by cases h.version <;> decide), if_neg (by cases h.version <;> decide),
    readRest_eq hretry hlen htok _ rfl]
  simp only [hparsed, ExtendedHeader.parsed]

/-- **`ParsePacket` recovers the header** and cuts the packet off where the length field
says, whatever the sealed part and the mask of the first byte. -/
theorem parsePacket_append {hdr body : List UInt8}
    (happ : h.append = some hdr) (hb : h.Masked b) (hbody : body.length = h.length)
    (rest : List UInt8) : parsePacket (b :: h.clearBytes ++ body ++ rest) =
      .ok (h.parsed, b :: h.clearBytes ++ body, rest) := by
  obtain ⟨hlen, htok, -⟩ := append_eq_some h hretry happ
  have hparse := parseLongHeader_clearBytes hretry hlen htok hb (body ++ rest)
  have htake : (b :: h.clearBytes ++ body).length = h.parsed.parsedLen + h.parsed.length := by
    simp only [List.length_append, length_cons, hbody]
    rfl
  rw [append_assoc, cons_append, parsePacket, if_pos (highBits_masked hretry hb).1, hparse]
  simp only [Except.bind]
  rw [if_neg (by rw [← htake]; simp only [List.length_append, length_cons]; omega), ← htake,
    ← cons_append, ← append_assoc, take_left, drop_left]

end RoundTrip

end UQuic.Wire
