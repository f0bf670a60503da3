/-
# `UQuic.PacketUnpacker` — packets that were packed are unpacked

`packet_unpacker.go`, with `ExtendedHeader.parse`, `ParseShortHeader` and
`DecodePacketNumber`.  A packet is opened from the outside in:

    ParsePacket        cuts a long header packet off the datagram, by its length field
    unpackLongHeader   takes the mask off the first byte and off four bytes, since the
                       length of the packet number is masked, too; once it is known, the
                       bytes behind the packet number are put back
    Open               gets the payload with the packet number and the clear header

The sample that the mask is computed from starts four bytes behind the start of the
packet number, however long that is.  Hence the packet number and the payload must have
four bytes together: `appendLongHeaderPacket` and `appendShortHeaderPacket` pad a payload
that is shorter, `appendInitialPacket` leaves that to its callers.

## What is proved

`unpack_packed`: whatever the three functions write is unpacked to the same header, packet
number, key phase and payload, for any sealer and an opener that undoes it.

`decodePacketNumber_truncated`: a packet number is recovered from the bytes that the sender
chose to write of it.
-/
import UQuic.PacketSize
import UQuic.AckHandler.PacketNumbers
import UQuic.Handshake.UpdatableAEAD

namespace UQuic

open List Except
open Wire (ExtendedHeader Header ConnectionID PacketNumberLen PacketType)
open Handshake (KeyError OpenError)

/-! ## Packet numbers -/

/-- `DecodePacketNumber`.  The low bits of `expected & ^mask` are clear, so that `truncated`
is added to it. -/
def decodePacketNumber (length : PacketNumberLen) (largest truncated : Int) : Int :=
  let expected := largest + 1
  let win : Int := 2 ^ (length.toNat * 8)
  let hwin := win / 2
  let candidate := expected - expected % win + truncated
  if candidate ≤ expected - hwin ∧ candidate < 2 ^ 62 - win then candidate + win
  else if expected + hwin < candidate ∧ win ≤ candidate then candidate - win
  else candidate

namespace Wire

def readPacketNumber (data : List UInt8) (pnLen : PacketNumberLen) : Nat :=
  (data.take pnLen.toNat).foldl (fun pn b => pn <<< 8 + b.toNat) 0

theorem readPacketNumber_bytes (pn : Nat) (pnLen : PacketNumberLen) (rest : List UInt8) :
    readPacketNumber (packetNumberBytes pn pnLen ++ rest) pnLen = pn % 2 ^ (pnLen.toNat * 8) := by
  rw [readPacketNumber, ← length_packetNumberBytes pn pnLen, take_left]
  cases pnLen <;>
    simp only [packetNumberBytes, putUint32, foldl_cons, foldl_nil, UInt8.toNat_ofNat',
      Nat.shiftLeft_eq, Nat.shiftRight_eq_div_pow, length_cons, length_nil] <;>
    omega

/-- The two lowest bits of the first byte. -/
def packetNumberLen (firstByte : UInt8) : PacketNumberLen :=
  match (firstByte &&& 0x3).toNat with
  | 0 => .one
  | 1 => .two
  | 2 => .three
  | _ => .four

/-! ## Headers without protection -/

/-- The errors of the header parsers, and of the unpacker before it calls them. -/
inductive HeaderParseError
  /-- `packet too small, expected at least 20 bytes after the header, got %d`. -/
  | tooSmall (got : Int)
  /-- `io.EOF`. -/
  | eof
  /-- `not a short header packet`. -/
  | notShortHeader
  /-- `not a QUIC packet`. -/
  | notQUIC
  deriving DecidableEq, Repr

/-- `ExtendedHeader`, the fields that are parsed. -/
structure UnpackedHeader where
  header : Header
  typeByte : UInt8
  packetNumberLen : PacketNumberLen
  packetNumber : Int
  parsedLen : Nat
  deriving DecidableEq, Repr

/-- `ParseExtended`, where `false` stands for `ErrInvalidReservedBits`. -/
def Header.parseExtended (h : Header) : List UInt8 → Except HeaderParseError (UnpackedHeader × Bool)
  | [] => .error .eof
  | typeByte :: b =>
    let pnLen := Wire.packetNumberLen typeByte
    if b.length + 1 < h.parsedLen + pnLen.toNat then .error .eof
    else
      let pn := readPacketNumber ((typeByte :: b).drop h.parsedLen) pnLen
      .ok (⟨h, typeByte, pnLen, pn, h.parsedLen + pnLen.toNat⟩, typeByte &&& 0xc == 0)

/-- What `ParseShortHeader` returns. -/
structure ShortHeader where
  length : Nat
  packetNumber : Int
  packetNumberLen : PacketNumberLen
  /-- `KeyPhaseOne`. -/
  keyPhaseOne : Bool
  deriving DecidableEq, Repr

/-- `ParseShortHeader`, where `false` stands for `ErrInvalidReservedBits`. -/
def parseShortHeader (connIDLen : Nat) : List UInt8 → Except HeaderParseError (ShortHeader × Bool)
  | [] => .error .eof
  | typeByte :: b =>
    if typeByte &&& 0x80 ≠ 0 then .error .notShortHeader
    else if typeByte &&& 0x40 = 0 then .error .notQUIC
    else
      let pnLen := Wire.packetNumberLen typeByte
      if b.length + 1 < 1 + pnLen.toNat + connIDLen then .error .eof
      else
        let pn := readPacketNumber ((typeByte :: b).drop (1 + connIDLen)) pnLen
        .ok (⟨1 + connIDLen + pnLen.toNat, pn, pnLen, typeByte &&& 0b100 != 0⟩,
          typeByte &&& 0x18 == 0)

end Wire

open Wire (UnpackedHeader HeaderParseError ShortHeader)

/-! ## The unpacker -/

/-- `handshake.LongHeaderOpener`. -/
structure LongHeaderOpener where
  /-- The mask that header protection gets from a sample. -/
  mask : List UInt8 → Nat → UInt8
  /-- `Open`, of a packet number, a sealed payload and the header. -/
  openPayload : Int → List UInt8 → List UInt8 → Option (List UInt8)
  highestRcvdPN : Int

/-- `handshake.ShortHeaderOpener`. -/
structure ShortHeaderOpener where
  mask : List UInt8 → Nat → UInt8
  /-- `Open`, of the time, a packet number, the key phase, a sealed payload and the header. -/
  openPayload : Int → Int → Bool → List UInt8 → List UInt8 → Except OpenError (List UInt8)
  highestRcvdPN : Int

/-- The openers of `handshake.CryptoSetup`. -/
structure OpeningManager where
  getInitialOpener : Except KeyError LongHeaderOpener
  getHandshakeOpener : Except KeyError LongHeaderOpener
  get0RTTOpener : Except KeyError LongHeaderOpener
  get1RTTOpener : Except KeyError ShortHeaderOpener

/-- `packetUnpacker`. -/
structure PacketUnpacker where
  cs : OpeningManager
  shortHdrConnIDLen : Nat

/-- `unpackedPacket`. -/
structure UnpackedPacket where
  hdr : UnpackedHeader
  encryptionLevel : EncryptionLevel
  data : List UInt8
  deriving DecidableEq, Repr

/-- The errors of the unpacker. -/
inductive UnpackError
  | keys (e : KeyError)
  | headerParse (e : HeaderParseError)
  /-- `ErrInvalidReservedBits`. -/
  | invalidReservedBits
  /-- The error of the AEAD. -/
  | opening (e : OpenError)
  /-- PROTOCOL_VIOLATION: `empty packet`. -/
  | emptyPacket
  /-- `unknown packet type: %s`. -/
  | unknownPacketType
  deriving DecidableEq, Repr

namespace PacketUnpacker

/-- `DecryptHeader`, assuming a packet number of four bytes. -/
def decryptHeader (mask : List UInt8 → Nat → UInt8) (low : UInt8) (hdrLen : Nat)
    (data : List UInt8) : List UInt8 :=
  let sample := (data.drop (hdrLen + 4)).take 16
  match data with
  | [] => []
  | first :: rest =>
    (first ^^^ (mask sample 0 &&& low)) :: rest.take (hdrLen - 1) ++
      ((data.drop hdrLen).take 4).mapIdx (fun i b => b ^^^ mask sample (i + 1)) ++
      data.drop (hdrLen + 4)

/-- The bytes behind a shorter packet number are replaced by the copy that was saved. -/
def restoreBytes (hdrLen : Nat) (pnLen : PacketNumberLen) (origPNBytes data : List UInt8) :
    List UInt8 :=
  if pnLen ≠ .four then
    data.take (hdrLen + pnLen.toNat) ++ origPNBytes.drop pnLen.toNat ++ data.drop (hdrLen + 4)
  else data

/-- `unpackLongHeader`: the header, whether its reserved bits are valid, and the data, which is
changed in place. -/
def unpackLongHeaderBytes (mask : List UInt8 → Nat → UInt8) (hdr : Header) (data : List UInt8) :
    Except HeaderParseError ((UnpackedHeader × Bool) × List UInt8) :=
  let hdrLen := hdr.parsedLen
  if data.length < hdrLen + 4 + 16 then .error (.tooSmall (data.length - hdrLen))
  else
    let origPNBytes := (data.drop hdrLen).take 4
    let data := decryptHeader mask 0xf hdrLen data
    (hdr.parseExtended data).map fun (extHdr, valid) =>
      ((extHdr, valid), restoreBytes hdrLen extHdr.packetNumberLen origPNBytes data)

/-- `unpackLongHeaderPacket`.  Invalid reserved bits are reported after the packet was
opened. -/
def unpackLongHeaderPacket (opener : LongHeaderOpener) (hdr : Header) (data : List UInt8) :
    Except UnpackError (UnpackedHeader × List UInt8) :=
  match unpackLongHeaderBytes opener.mask hdr data with
  | .error e => .error (.headerParse e)
  | .ok ((extHdr, valid), data) =>
    let pn := decodePacketNumber extHdr.packetNumberLen opener.highestRcvdPN extHdr.packetNumber
    match opener.openPayload pn (data.drop extHdr.parsedLen) (data.take extHdr.parsedLen) with
    | none => .error (.opening .decryptionFailed)
    | some decrypted =>
      if valid then .ok ({ extHdr with packetNumber := pn }, decrypted)
      else .error .invalidReservedBits

/-- The opener for a packet type, with its encryption level. -/
def openerFor (u : PacketUnpacker) :
    Option PacketType → Option (EncryptionLevel × Except KeyError LongHeaderOpener)
  | some .initial => some (.initial, u.cs.getInitialOpener)
  | some .handshake => some (.handshake, u.cs.getHandshakeOpener)
  | some .zeroRTT => some (.zeroRTT, u.cs.get0RTTOpener)
  | some .retry | none => none

def unpackLongHeader (u : PacketUnpacker) (hdr : Header) (data : List UInt8) :
    Except UnpackError UnpackedPacket :=
  match u.openerFor hdr.type with
  | none => .error .unknownPacketType
  | some (_, .error e) => .error (.keys e)
  | some (encLevel, .ok opener) =>
    (unpackLongHeaderPacket opener hdr data).bind fun (extHdr, decrypted) =>
      if decrypted = [] then .error .emptyPacket else .ok ⟨extHdr, encLevel, decrypted⟩

/-- `unpackShortHeader`. -/
def unpackShortHeaderBytes (u : PacketUnpacker) (mask : List UInt8 → Nat → UInt8)
    (data : List UInt8) : Except HeaderParseError ((ShortHeader × Bool) × List UInt8) :=
  let hdrLen := 1 + u.shortHdrConnIDLen
  if data.length < hdrLen + 4 + 16 then .error (.tooSmall (data.length - hdrLen))
  else
    let origPNBytes := (data.drop hdrLen).take 4
    let data := decryptHeader mask 0x1f hdrLen data
    (Wire.parseShortHeader u.shortHdrConnIDLen data).map fun (hdr, valid) =>
      ((hdr, valid), restoreBytes hdrLen hdr.packetNumberLen origPNBytes data)

def unpackShortHeaderPacket (u : PacketUnpacker) (opener : ShortHeaderOpener) (rcvTime : Int)
    (data : List UInt8) : Except UnpackError (ShortHeader × List UInt8) :=
  match u.unpackShortHeaderBytes opener.mask data with
  | .error e => .error (.headerParse e)
  | .ok ((hdr, valid), data) =>
    let pn := decodePacketNumber hdr.packetNumberLen opener.highestRcvdPN hdr.packetNumber
    match opener.openPayload rcvTime pn hdr.keyPhaseOne (data.drop hdr.length)
      (data.take hdr.length) with
    | .error e => .error (.opening e)
    | .ok decrypted =>
      if valid then .ok ({ hdr with packetNumber := pn }, decrypted)
      else .error .invalidReservedBits

def unpackShortHeader (u : PacketUnpacker) (rcvTime : Int) (data : List UInt8) :
    Except UnpackError (ShortHeader × List UInt8) :=
  match u.cs.get1RTTOpener with
  | .error e => .error (.keys e)
  | .ok opener =>
    (u.unpackShortHeaderPacket opener rcvTime data).bind fun (hdr, decrypted) =>
      if decrypted = [] then .error .emptyPacket else .ok (hdr, decrypted)

/-! ## Header protection is taken off -/

section Protection

variable (mask : List UInt8 → Nat → UInt8) (low first : UInt8) (clear : List UInt8)
  {pnBytes : List UInt8} (body : List UInt8) {pnLen : PacketNumberLen}
  (hpn : pnBytes.length = pnLen.toNat)

theorem toNat_le_four (pnLen : PacketNumberLen) : pnLen.toNat ≤ 4 := by
  cases pnLen <;> decide

theorem unmask (mask : Nat → UInt8) (l : List UInt8) :
    (l.mapIdx fun i b => b ^^^ mask i).mapIdx (fun i b => b ^^^ mask i) = l := by
  apply ext_getElem?
  intro i
  rw [List.getElem?_mapIdx, List.getElem?_mapIdx]
  cases l[i]? with
  | none => rfl
  | some b =>
    simp only [Option.map_some, UInt8.xor_assoc, UInt8.xor_self, UInt8.xor_zero]

/-- The sample lies behind the packet number, masked or not. -/
theorem drop_four {l : List UInt8} (hl : l.length = pnLen.toNat) :
    (l ++ body).drop 4 = body.drop (4 - pnLen.toNat) := by
  rw [drop_append, hl, drop_of_length_le (by rw [hl]; exact toNat_le_four pnLen), nil_append]

include hpn

/-- The mask comes off the first byte and the packet number; what follows up to four bytes is
masked instead. -/
theorem decryptHeader_masked (hbody : 4 ≤ body.length) :
    let sample := ((pnBytes ++ body).drop 4).take 16
    ∃ masked : List UInt8, masked.length = 4 - pnLen.toNat ∧
      decryptHeader mask low (clear.length + 1)
        ((first ^^^ (mask sample 0 &&& low)) :: (clear ++
          (pnBytes.mapIdx (fun i b => b ^^^ mask sample (i + 1)) ++ body))) =
        first :: (clear ++ (pnBytes ++ (masked ++ body.drop (4 - pnLen.toNat)))) := by
  intro sample
  have hfour := toNat_le_four pnLen
  have hmapped : (pnBytes.mapIdx fun i b => b ^^^ mask sample (i + 1)).length = pnLen.toNat := by
    rw [length_mapIdx, hpn]
  refine ⟨(body.take (4 - pnLen.toNat)).mapIdx
    fun i b => b ^^^ mask sample (i + pnLen.toNat + 1), ?_, ?_⟩
  · rw [length_mapIdx, length_take]
    omega
  · have hsample : ((pnBytes.mapIdx (fun i b => b ^^^ mask sample (i + 1)) ++
      body).drop 4).take 16 =
        sample := by
      rw [drop_four body hmapped, ← drop_four body hpn]
    simp only [decryptHeader, drop_succ_cons, ← drop_drop, drop_left, hsample,
      take_left, Nat.add_sub_cancel]
    rw [drop_four body hmapped, take_append, hmapped,
      take_of_length_le (by rw [hmapped]; exact hfour), mapIdx_append, hmapped,
      unmask fun i => mask sample (i + 1)]
    simp only [UInt8.xor_assoc, UInt8.xor_self, UInt8.xor_zero, cons_append, append_assoc]

/-- The bytes behind the packet number are put back. -/
theorem restoreBytes_eq {masked : List UInt8} (hmasked : masked.length = 4 - pnLen.toNat)
    {origPNBytes : List UInt8} (horig :
    origPNBytes.drop pnLen.toNat = body.take (4 - pnLen.toNat)) :
    restoreBytes (clear.length + 1) pnLen origPNBytes
      (first :: (clear ++ (pnBytes ++ (masked ++ body.drop (4 - pnLen.toNat))))) =
      first :: (clear ++ (pnBytes ++ body)) := by
  have hfour := toNat_le_four pnLen
  rw [restoreBytes]
  split_ifs with hlen
  · have htake : (first :: (clear ++ (pnBytes ++ (masked ++ body.drop (4 - pnLen.toNat))))).take
        (clear.length + 1 + pnLen.toNat) = first :: (clear ++ pnBytes) := by
      rw [← hpn, Nat.add_right_comm, take_succ_cons, ← append_assoc clear,
        ← length_append, take_left]
    have hdrop : (first :: (clear ++ (pnBytes ++ (masked ++ body.drop (4 - pnLen.toNat))))).drop
        (clear.length + 1 + 4) = body.drop (4 - pnLen.toNat) := by
      rw [Nat.add_right_comm, drop_succ_cons, ← drop_drop, drop_left,
        ← append_assoc, drop_left' (by rw [length_append, hpn, hmasked]; omega)]
    rw [htake, hdrop, horig]
    simp only [cons_append, append_assoc, take_append_drop]
  · rw [not_not.mp hlen] at hmasked ⊢
    rw [eq_nil_of_length_eq_zero hmasked]
    rfl

end Protection

/-! ## The header is read back -/

/-- What a written header is unpacked to. -/
def unpackedHeader (h : ExtendedHeader) : UnpackedHeader where
  header := h.parsed
  typeByte := h.firstByte
  packetNumberLen := h.packetNumberLen
  packetNumber := h.packetNumber
  parsedLen := h.parsed.parsedLen + h.packetNumberLen.toNat

/-- The packet number of a written header, as much of it as is there. -/
def truncated (pn : Nat) (pnLen : PacketNumberLen) : Int := (pn % 2 ^ (pnLen.toNat * 8) : Nat)

/-- The length leaves half a window for the numbers that are not acknowledged. -/
theorem unacked_lt {pn : Nat} {largestAcked : Int} (hunacked : pn - largestAcked < 2 ^ 31) :
    pn - largestAcked <
      2 ^ (8 * (AckHandler.packetNumberLengthForHeader pn largestAcked).toNat - 1) := by
  have hnum : (if largestAcked = invalidPacketNumber then (pn : Int) + 1 else pn - largestAcked) =
      pn - largestAcked := by
    by_cases hno : largestAcked = invalidPacketNumber
    · rw [if_pos hno, hno, invalidPacketNumber]
      omega
    · rw [if_neg hno]
  simp only [AckHandler.packetNumberLengthForHeader, hnum]
  split
  · assumption
  · split <;> assumption

/-- **Truncated packet numbers are recovered.**  The sender takes a length by what was
acknowledged; the receiver knows of the acknowledged packets, and of others up to half a window
ahead. -/
theorem decodePacketNumber_truncated {pn : Nat} {largestAcked largest : Int}
    {pnLen : PacketNumberLen} (hpn : pn < 2 ^ 62) (hacked : -1 ≤ largestAcked ∧ largestAcked < pn)
    (hunacked : pn - largestAcked < 2 ^ 31)
    (hlen : pnLen = AckHandler.packetNumberLengthForHeader pn largestAcked)
    (hrcvd : largestAcked ≤ largest ∧ largest < pn + 2 ^ (8 * pnLen.toNat - 1) - 1) :
    decodePacketNumber pnLen largest (truncated pn pnLen) = pn := by
  have hwindow := unacked_lt hunacked
  rw [← hlen] at hwindow
  clear hlen
  -- the candidate is off by one window at most
  cases pnLen <;>
    norm_num [decodePacketNumber, truncated, PacketNumberLen.toNat] at * <;>
    split_ifs <;>
    omega

/-- Three bytes, and a receiver that has seen later packets. -/
theorem decodePacketNumber_truncated_ahead :
    decodePacketNumber .three 8400000 (truncated 40000 .three) = 40000 :=
  @decodePacketNumber_truncated 40000 10 8400000 .three (by decide) (by decide)
    (by decide) (by decide)
    (by decide)

theorem firstByte_bits {h : ExtendedHeader} (hretry : h.type ≠ .retry) :
    Wire.packetNumberLen h.firstByte = h.packetNumberLen ∧ (h.firstByte &&& 0xc == 0) = true := by
  rw [ExtendedHeader.firstByte, if_neg hretry]
  cases h.version <;> cases h.type <;> cases h.packetNumberLen <;> exact ⟨rfl, rfl⟩

theorem parseExtended_bytes {h : ExtendedHeader} (hretry : h.type ≠ .retry) (rest : List UInt8) :
    h.parsed.parseExtended (h.firstByte :: (h.clearBytes ++
      (Wire.packetNumberBytes h.packetNumber h.packetNumberLen ++ rest))) =
      .ok ({ unpackedHeader h with packetNumber := truncated h.packetNumber h.packetNumberLen },
        true) := by
  obtain ⟨hlen, hvalid⟩ := firstByte_bits hretry
  have hparsed : h.parsed.parsedLen = h.clearBytes.length + 1 := rfl
  have hpn := Wire.length_packetNumberBytes h.packetNumber h.packetNumberLen
  rw [Header.parseExtended, hlen, if_neg (by
    simp only [length_append, hpn, hparsed]
    omega), hvalid, hparsed, drop_succ_cons, drop_left, Wire.readPacketNumber_bytes]
  rfl

/-- The first byte of a short header. -/
def shortFirstByte (pnLen : PacketNumberLen) (keyPhaseOne : Bool) : UInt8 :=
  let typeByte := (0x40 : UInt8) ||| .ofNat (pnLen.toNat - 1)
  if keyPhaseOne then typeByte ||| 0x4 else typeByte

theorem parseShortHeader_bytes (connID : ConnectionID) (pn : Nat) (pnLen : PacketNumberLen)
    (keyPhaseOne : Bool) (rest : List UInt8) :
    Wire.parseShortHeader connID.bytes.length (shortFirstByte pnLen keyPhaseOne ::
      (connID.bytes ++ (Wire.packetNumberBytes pn pnLen ++ rest))) =
      .ok (⟨Wire.shortHeaderLen connID pnLen, truncated pn pnLen, pnLen, keyPhaseOne⟩, true) := by
  have hbits : shortFirstByte pnLen keyPhaseOne &&& 0x80 = 0 ∧
      shortFirstByte pnLen keyPhaseOne &&& 0x40 ≠ 0 ∧
      Wire.packetNumberLen (shortFirstByte pnLen keyPhaseOne) = pnLen ∧
      (shortFirstByte pnLen keyPhaseOne &&& 0b100 != 0) = keyPhaseOne ∧
      (shortFirstByte pnLen keyPhaseOne &&& 0x18 == 0) = true := by
    cases pnLen <;> cases keyPhaseOne <;> decide
  obtain ⟨h80, h40, hlen, hkeyPhase, hvalid⟩ := hbits
  have hpn := Wire.length_packetNumberBytes pn pnLen
  rw [Wire.parseShortHeader, if_neg (not_not.mpr h80), if_neg h40, hlen, if_neg (by
    simp only [length_append, hpn]
    omega), hkeyPhase, hvalid, Nat.add_comm 1, drop_succ_cons, drop_left,
    Wire.readPacketNumber_bytes, Nat.add_comm _ 1]
  rfl

/-! ## Sealed packets are unpacked -/

/-- The opener undoes the sealer: an ideal AEAD, and the same mask. -/
structure OpensLong (o : LongHeaderOpener) (s : Sealer) : Prop where
  mask_eq : o.mask = s.mask
  opens : ∀ (pn : Nat) payload header,
    o.openPayload pn (s.sealPayload pn payload header) header = some payload

/-- The same for short headers, for packets of one key phase. -/
structure OpensShort (o : ShortHeaderOpener) (s : Sealer) (keyPhaseOne : Bool) : Prop where
  mask_eq : o.mask = s.mask
  opens : ∀ (rcvTime : Int) (pn : Nat) payload header,
    o.openPayload rcvTime pn keyPhaseOne (s.sealPayload pn payload header) header = .ok payload

/-- **A sealed packet loses its protection**: it is long enough for a sample, its clear header
is found whatever the length of the packet number, and behind it is the sealed payload. -/
theorem unprotect_encryptPacket (first : UInt8) (clear : List UInt8) {pnBytes : List UInt8}
    {pnLen : PacketNumberLen} (hpn : pnBytes.length = pnLen.toNat) {plaintext : List UInt8}
    (hlen : 4 ≤ pnLen.toNat + plaintext.length) (s : Sealer) (pn : Nat) (low : UInt8) :
    let hdr := first :: (clear ++ pnBytes)
    let data := PacketPacker.encryptPacket hdr plaintext s pn pnLen low
    ¬ data.length < clear.length + 1 + 4 + 16 ∧
    ∃ rest, decryptHeader s.mask low (clear.length + 1) data =
        first :: (clear ++ (pnBytes ++ rest)) ∧
      restoreBytes (clear.length + 1) pnLen ((data.drop (clear.length + 1)).take 4)
        (first :: (clear ++ (pnBytes ++ rest))) = hdr ++ s.sealPayload pn plaintext hdr := by
  intro hdr data
  have hsealed := s.length_sealPayload pn plaintext hdr
  have hdata : data = _ := PacketPacker.encryptPacket_bytes first clear hpn plaintext s pn low
  rw [hdata]
  generalize s.sealPayload pn plaintext hdr = body at hsealed ⊢
  have hbody : body.length = 16 + plaintext.length := by
    rw [hsealed, sealerOverhead, Nat.add_comm]
  obtain ⟨masked, hmasked, hdecrypt⟩ :=
    decryptHeader_masked s.mask low first clear body hpn (by omega)
  have hmapped := length_mapIdx (l := pnBytes)
    (f := fun i b => b ^^^ s.mask (((pnBytes ++ body).drop 4).take 16) (i + 1))
  refine ⟨?_, masked ++ body.drop (4 - pnLen.toNat), hdecrypt, ?_⟩
  · simp only [length_cons, length_append, hmapped, hpn]
    omega
  · rw [restoreBytes_eq _ _ body hpn hmasked]
    · simp only [hdr, cons_append, append_assoc]
    · -- what was saved are the bytes as they were sent
      rw [drop_succ_cons, drop_left, drop_take, ← hpn, ← hmapped, drop_left]

section Long

variable {h : ExtendedHeader} {hdr plaintext : List UInt8} (hretry : h.type ≠ .retry)
  (hhdr : h.append = some hdr) (hlen : 4 ≤ h.packetNumberLen.toNat + plaintext.length)

include hretry hhdr hlen

theorem unpackLongHeaderBytes_encryptPacket (s : Sealer) :
    unpackLongHeaderBytes s.mask h.parsed
      (PacketPacker.encryptPacket hdr plaintext s h.packetNumber h.packetNumberLen 0xf) =
      .ok (({ unpackedHeader h with packetNumber := truncated h.packetNumber h.packetNumberLen },
        true), hdr ++ s.sealPayload h.packetNumber plaintext hdr) := by
  obtain ⟨-, -, hbytes⟩ := Wire.append_eq_some h hretry hhdr
  rw [cons_append] at hbytes
  subst hbytes
  have hpn := Wire.length_packetNumberBytes h.packetNumber h.packetNumberLen
  obtain ⟨hsize, rest, hdecrypt, hrestore⟩ := unprotect_encryptPacket h.firstByte h.clearBytes hpn
    hlen s h.packetNumber 0xf
  have hparsed : h.parsed.parsedLen = h.clearBytes.length + 1 := rfl
  rw [unpackLongHeaderBytes, hparsed, if_neg hsize]
  dsimp only
  rw [hdecrypt, parseExtended_bytes hretry]
  simp only [Except.map, unpackedHeader]
  rw [hrestore]

theorem unpackLongHeaderPacket_encryptPacket {o : LongHeaderOpener} {s : Sealer}
    (hopens : OpensLong o s) (hdecode : decodePacketNumber h.packetNumberLen o.highestRcvdPN
      (truncated h.packetNumber h.packetNumberLen) = h.packetNumber) :
    unpackLongHeaderPacket o h.parsed
      (PacketPacker.encryptPacket hdr plaintext s h.packetNumber h.packetNumberLen 0xf) =
      .ok (unpackedHeader h, plaintext) := by
  have hlength : (unpackedHeader h).parsedLen = hdr.length := by
    obtain ⟨-, -, rfl⟩ := Wire.append_eq_some h hretry hhdr
    simp only [unpackedHeader, ExtendedHeader.parsed, length_cons, length_append,
      Wire.length_packetNumberBytes, cons_append]
    omega
  rw [unpackLongHeaderPacket, hopens.mask_eq, unpackLongHeaderBytes_encryptPacket hretry hhdr hlen]
  dsimp only
  rw [hlength, drop_left, take_left]
  have hdecode : decodePacketNumber (unpackedHeader h).packetNumberLen o.highestRcvdPN
    (truncated h.packetNumber h.packetNumberLen) = h.packetNumber := hdecode
  rw [hdecode, hopens.opens, ← hlength]
  rfl

end Long

section Short

variable (u : PacketUnpacker) {connID : ConnectionID}
  (hconn : u.shortHdrConnIDLen = connID.bytes.length) (pn : Nat) {pnLen : PacketNumberLen}
  {plaintext : List UInt8} (hlen : 4 ≤ pnLen.toNat + plaintext.length) (keyPhaseOne : Bool)

include hconn hlen

theorem unpackShortHeaderBytes_encryptPacket (s : Sealer) :
    let hdr := Wire.shortHeaderBytes connID pn pnLen keyPhaseOne
    u.unpackShortHeaderBytes s.mask (PacketPacker.encryptPacket hdr plaintext s pn pnLen 0x1f) =
      .ok ((⟨Wire.shortHeaderLen connID pnLen, truncated pn pnLen, pnLen, keyPhaseOne⟩, true),
        hdr ++ s.sealPayload pn plaintext hdr) := by
  have hpn := Wire.length_packetNumberBytes pn pnLen
  obtain ⟨hsize, rest, hdecrypt, hrestore⟩ := unprotect_encryptPacket
    (shortFirstByte pnLen keyPhaseOne) connID.bytes hpn hlen s pn 0x1f
  intro hdr
  have hhdr : hdr = shortFirstByte pnLen keyPhaseOne ::
    (connID.bytes ++ Wire.packetNumberBytes pn pnLen) := rfl
  rw [hhdr, unpackShortHeaderBytes, hconn, Nat.add_comm 1, if_neg hsize]
  dsimp only
  rw [hdecrypt, parseShortHeader_bytes]
  simp only [Except.map]
  rw [hrestore]

theorem unpackShortHeader_encryptPacket {o : ShortHeaderOpener} {s : Sealer}
    (hopener : u.cs.get1RTTOpener = .ok o) (hopens : OpensShort o s keyPhaseOne)
    (hdecode : decodePacketNumber pnLen o.highestRcvdPN (truncated pn pnLen) = pn)
    (hne : plaintext ≠ []) (rcvTime : Int) : u.unpackShortHeader rcvTime (PacketPacker.encryptPacket
      (Wire.shortHeaderBytes connID pn pnLen keyPhaseOne) plaintext s pn pnLen 0x1f) =
      .ok (⟨Wire.shortHeaderLen connID pnLen, pn, pnLen, keyPhaseOne⟩, plaintext) := by
  have hlength := Wire.length_shortHeaderBytes connID pn pnLen keyPhaseOne
  rw [unpackShortHeader, hopener]
  dsimp only
  rw [unpackShortHeaderPacket, hopens.mask_eq,
    unpackShortHeaderBytes_encryptPacket u hconn pn hlen keyPhaseOne s]
  dsimp only
  rw [hdecode, ← hlength, drop_left, take_left, hopens.opens]
  simp only [if_true, Except.bind, if_neg hne]

end Short

/-! ## What the packer writes -/

/-- A STREAM frame is written behind what is there. -/
theorem appendStreamFrame_meets (n : Nat) (f : Wire.StreamFrame) {raw : List UInt8}
    (h : n ≤ raw.length) :
    (PacketPacker.appendStreamFrame raw f).Meets (fun c => n ≤ c.length) fun _ => True := by
  cases happ : f.append raw with
  | error e =>
    rw [PacketPacker.appendStreamFrame, happ]
    cases e with
    | emptyWithoutFin | tooLarge => exact trivial
  | ok c =>
    rw [PacketPacker.appendStreamFrame, happ]
    rw [Wire.StreamFrame.append] at happ
    split_ifs at happ
    split at happ
    · cases happ
    · rename_i d hd
      cases happ
      rw [QuicVarint.foldlM_append_eq_some hd]
      simp only [meets_ok, length_append]
      omega

/-- A payload that is written has the length that it says, and the padding. -/
theorem length_appendPacketPayload {p : PacketPacker} {pl : Payload} {paddingLen : Nat}
    {plaintext : List UInt8} (h : p.appendPacketPayload pl paddingLen = .ok plaintext) :
    plaintext.length = pl.length + paddingLen := by
  obtain ⟨ack, -, h⟩ := bind_eq_ok_iff.mp h
  obtain ⟨frames, hframes, h⟩ := bind_eq_ok_iff.mp h
  obtain ⟨raw, hraw, h⟩ := bind_eq_ok_iff.mp h
  have hframes := (PacketPacker.appendFrames_meets _ _).of_eq_ok hframes
  have hle : paddingLen ≤ frames.length := by
    rw [hframes]
    simp only [length_append, length_replicate]
    omega
  have hraw := (Meets.foldlM (I := fun _ b => paddingLen ≤ b.length)
    (fun f _ _ hb => appendStreamFrame_meets paddingLen f hb) hle).of_eq_ok hraw
  split_ifs at h
  cases h
  omega

/-- The header of a packet with this payload. -/
def sealedHeader (header : ExtendedHeader) (plaintext : List UInt8) : ExtendedHeader :=
  { header with length := header.packetNumberLen.toNat + sealerOverhead + plaintext.length }

/-- `ParsePacket` cuts the packet off, whatever comes behind it, and it is unpacked to this
header and payload. -/
def UnpacksTo (u : PacketUnpacker) (raw : List UInt8) (h : ExtendedHeader)
    (encLevel : EncryptionLevel) (plaintext : List UInt8) : Prop :=
  ∀ rest, Wire.parsePacket (raw ++ rest) = .ok (h.parsed, raw, rest) ∧
    u.unpackLongHeader h.parsed raw = .ok ⟨unpackedHeader h, encLevel, plaintext⟩

section Packed

variable {p : PacketPacker} {u : PacketUnpacker} {buffer buffer' : List UInt8} {pl : Payload}
  {s : Sealer}

theorem appendSealed_unpacks {header : ExtendedHeader} {encLevel : EncryptionLevel}
    {o : LongHeaderOpener} (hopener : u.openerFor (some header.type) = some (encLevel, .ok o))
    (hopens : OpensLong o s) (hdecode : decodePacketNumber header.packetNumberLen o.highestRcvdPN
      (truncated header.packetNumber header.packetNumberLen) = header.packetNumber)
    {plaintext : List UInt8} (hne : plaintext ≠ [])
    (hlen : 4 ≤ header.packetNumberLen.toNat + plaintext.length) {packet : LongHeaderPacket}
    (h : PacketPacker.appendSealed buffer header pl plaintext s = .ok (buffer', packet)) :
    ∃ raw, buffer' = buffer ++ raw ∧
      UnpacksTo u raw (sealedHeader header plaintext) encLevel plaintext := by
  have hretry : header.type ≠ .retry := by
    intro htype
    rw [htype] at hopener
    cases hopener
  obtain ⟨hdr, hhdr, h⟩ := bind_eq_ok_iff.mp h
  obtain ⟨_, hbuffer, h⟩ := map_eq_ok_iff.mp h
  cases h
  have hhdr : (sealedHeader header plaintext).append = some hdr := orTooLarge_eq_ok hhdr
  refine ⟨_, (PacketPacker.appendToBuffer_meets _ _).of_eq_ok hbuffer, fun rest => ⟨?_, ?_⟩⟩
  · exact (PacketPacker.parsePacket_encryptPacket (h := sealedHeader header plaintext) hretry hhdr
      rfl s).2 rest
  · have hunpack : unpackLongHeaderPacket o (sealedHeader header plaintext).parsed
        (PacketPacker.encryptPacket hdr plaintext s header.packetNumber header.packetNumberLen
          0xf) = .ok (unpackedHeader (sealedHeader header plaintext), plaintext) :=
      unpackLongHeaderPacket_encryptPacket (h := sealedHeader header plaintext) hretry hhdr hlen
        hopens hdecode
    rw [unpackLongHeader, show (sealedHeader header plaintext).parsed.type =
      some header.type from rfl,
      hopener]
    dsimp only
    rw [hunpack]
    simp only [Except.bind, if_neg hne]

/-- With the padding, the payload and the packet number have four bytes. -/
theorem four_le {pnLen : PacketNumberLen} {padding : Nat} {plaintext : List UInt8}
    (h : p.appendPacketPayload pl (PacketPacker.tinyPadding pnLen pl.length + padding) =
      .ok plaintext) : 4 ≤ pnLen.toNat + plaintext.length := by
  have hlen := length_appendPacketPayload h
  rw [PacketPacker.tinyPadding] at hlen
  omega

end Packed

/-- **What was packed is unpacked.**  For an opener that undoes the sealer and recovers the
packet number, the packet behind `buffer` has the header, the packet number, the key phase and
the payload that went into it:

* of `appendLongHeaderPacket`, whatever follows it in the datagram;
* of `appendInitialPacket`, which does not pad, if the packet number and the payload have four
  bytes together;
* of `appendShortHeaderPacket`, whose packet ends the datagram.

A payload that is empty even with its padding is refused. -/
theorem unpack_packed (p : PacketPacker) (u : PacketUnpacker) (buffer : List UInt8) (pl : Payload)
    (s : Sealer) : (∀ (header : ExtendedHeader) (padding : Nat) (encLevel : EncryptionLevel)
      (o : LongHeaderOpener) (buffer' : List UInt8) (packet : LongHeaderPacket),
      u.openerFor (some header.type) = some (encLevel, .ok o) → OpensLong o s →
      decodePacketNumber header.packetNumberLen o.highestRcvdPN
        (truncated header.packetNumber header.packetNumberLen) = header.packetNumber →
      p.appendLongHeaderPacket buffer header pl padding s = .ok (buffer', packet) →
      ∃ plaintext, p.appendPacketPayload pl
          (PacketPacker.tinyPadding header.packetNumberLen pl.length + padding) = .ok plaintext ∧
        (plaintext ≠ [] → ∃ raw, buffer' = buffer ++ raw ∧
          UnpacksTo u raw (sealedHeader header plaintext) encLevel plaintext)) ∧
    (∀ (header : ExtendedHeader) (encLevel : EncryptionLevel) (o : LongHeaderOpener)
      (plaintext buffer' : List UInt8) (packet : LongHeaderPacket),
      u.openerFor (some header.type) = some (encLevel, .ok o) → OpensLong o s →
      decodePacketNumber header.packetNumberLen o.highestRcvdPN
        (truncated header.packetNumber header.packetNumberLen) = header.packetNumber →
      PacketPacker.appendSealed buffer header pl plaintext s = .ok (buffer', packet) →
      plaintext ≠ [] → 4 ≤ header.packetNumberLen.toNat + plaintext.length →
      ∃ raw, buffer' = buffer ++ raw ∧
        UnpacksTo u raw (sealedHeader header plaintext) encLevel plaintext) ∧
    (∀ (padding : Nat) (maxPacketSize : Int) (keyPhaseOne : Bool) (o : ShortHeaderOpener)
      (buffer' : List UInt8) (packet : ShortHeaderPacket),
      u.cs.get1RTTOpener = .ok o → OpensShort o s keyPhaseOne →
      u.shortHdrConnIDLen = p.destConnID.bytes.length →
      decodePacketNumber (p.pnManager .oneRTT).2 o.highestRcvdPN
        (truncated (p.pnManager .oneRTT).1 (p.pnManager .oneRTT).2) = (p.pnManager .oneRTT).1 →
      p.appendShortHeaderPacket buffer pl padding maxPacketSize s keyPhaseOne =
        .ok (buffer', packet) → ∃ plaintext raw, p.appendPacketPayload pl
          (PacketPacker.tinyPadding (p.pnManager .oneRTT).2 pl.length + padding) = .ok plaintext ∧
        buffer' = buffer ++ raw ∧ Wire.parsePacket raw = .error .notLongHeader ∧
        (plaintext ≠ [] → ∀ rcvTime, u.unpackShortHeader rcvTime raw =
          .ok (⟨Wire.shortHeaderLen p.destConnID (p.pnManager .oneRTT).2, (p.pnManager .oneRTT).1,
            (p.pnManager .oneRTT).2, keyPhaseOne⟩, plaintext))) := by
  refine ⟨?_, ?_, ?_⟩
  · intro header padding encLevel o buffer' packet hopener hopens hdecode h
    obtain ⟨plaintext, hplain, h⟩ := bind_eq_ok_iff.mp h
    exact ⟨plaintext, hplain, fun hne =>
      appendSealed_unpacks hopener hopens hdecode hne (four_le hplain) h⟩
  · intro header encLevel o plaintext buffer' packet hopener hopens hdecode h hne hlen
    exact appendSealed_unpacks hopener hopens hdecode hne hlen h
  · intro padding maxPacketSize keyPhaseOne o buffer' packet hopener hopens hconn hdecode h
    simp only [PacketPacker.appendShortHeaderPacket] at h
    obtain ⟨plaintext, hplain, h⟩ := bind_eq_ok_iff.mp h
    split_ifs at h
    obtain ⟨_, hbuffer, h⟩ := map_eq_ok_iff.mp h
    cases h
    refine ⟨plaintext, _, hplain, (PacketPacker.appendToBuffer_meets _ _).of_eq_ok hbuffer,
      PacketPacker.parsePacket_shortHeader _ _ _ _ _ _, fun hne rcvTime => ?_⟩
    exact unpackShortHeader_encryptPacket u hconn _ (four_le hplain) keyPhaseOne hopener hopens
      hdecode hne rcvTime

/-- A sealer that adds zeros and whose mask does not depend on the sample. -/
def zeroSealer : Sealer where
  sealPayload _ payload _ := payload ++ List.replicate sealerOverhead 0x0
  mask _ i := 0x5a + .ofNat i
  length_sealPayload := length_zeroTag

def zeroOpener : LongHeaderOpener where
  mask _ i := 0x5a + .ofNat i
  openPayload _ src _ := some (src.take (src.length - sealerOverhead))
  highestRcvdPN := 0

/-- The opener for it, of any key phase. -/
def zeroShortOpener : ShortHeaderOpener where
  mask := zeroOpener.mask
  openPayload _ _ _ src _ := .ok (src.take (src.length - sealerOverhead))
  highestRcvdPN := 0

theorem zeroOpener_opens : OpensLong zeroOpener zeroSealer where
  mask_eq := rfl
  opens := by
    intro pn payload header
    simp [zeroOpener, zeroSealer]

theorem zeroShortOpener_opens (keyPhaseOne : Bool) :
    OpensShort zeroShortOpener zeroSealer keyPhaseOne where
  mask_eq := rfl
  opens := by
    intro rcvTime pn payload header
    simp [zeroShortOpener, zeroSealer]

def zeroUnpacker : PacketUnpacker := ⟨⟨.ok zeroOpener, .ok zeroOpener, .ok zeroOpener,
  .ok zeroShortOpener⟩, 1⟩

def shortestHeader : ExtendedHeader where
  type := .initial
  version := .v2
  srcConnectionID := ⟨[1, 2, 3], by decide⟩
  destConnectionID := .empty
  token := [7]
  length := 0
  packetNumber := 5
  packetNumberLen := .one

def zeroPacker : PacketPacker where
  srcConnID := .single 1
  destConnID := .single 2
  perspective := .client
  cryptoSetup := ⟨some zeroSealer, none, none, some (zeroSealer, true)⟩
  initialStream := ⟨0, []⟩
  handshakeStream := ⟨0, []⟩
  token := [7]
  pnManager _ := (5, .one)
  framer := ⟨[], [], [], [], none⟩
  acks _ _ := none
  acks_sendable := noAck_sendable
  datagramQueue := none
  retransmissionQueue := ⟨⟨[], []⟩, ⟨[], []⟩, []⟩
  numNonAckElicitingAcks := 0
  swap _ := 0
  version := .v2

def pingPayload : Payload := ⟨[], [.ping], none, 1⟩

theorem unpack_packed_ping :
    (∃ raw packet, zeroPacker.appendLongHeaderPacket [] shortestHeader pingPayload 0 zeroSealer =
        .ok (raw, packet) ∧
      UnpacksTo zeroUnpacker raw (sealedHeader shortestHeader [0, 0, 1]) .initial [0, 0, 1]) ∧
    (∃ raw packet, zeroPacker.appendShortHeaderPacket [] pingPayload 0 1200 zeroSealer true =
        .ok (raw, packet) ∧
      zeroUnpacker.unpackShortHeader 0 raw = .ok (⟨3, 5, .one, true⟩, [0, 0, 1])) := by
  have hplain : zeroPacker.appendPacketPayload pingPayload 2 = .ok [0, 0, 1] := by decide +kernel
  obtain ⟨hlong, -, hshort⟩ := unpack_packed zeroPacker zeroUnpacker [] pingPayload zeroSealer
  constructor
  · obtain ⟨⟨raw, packet⟩, h⟩ : ∃ r, zeroPacker.appendLongHeaderPacket [] shortestHeader pingPayload
      0 zeroSealer = .ok r := ⟨_, rfl⟩
    obtain ⟨plaintext, hplain', hunpacks⟩ := hlong _ _ _ _ _ _ rfl zeroOpener_opens (by decide) h
    cases hplain.symm.trans hplain'
    obtain ⟨_, rfl, hto⟩ := hunpacks (by decide)
    exact ⟨_, packet, h, hto⟩
  · obtain ⟨⟨raw, packet⟩, h⟩ : ∃ r, zeroPacker.appendShortHeaderPacket [] pingPayload 0 1200
      zeroSealer true = .ok r := ⟨_, rfl⟩
    obtain ⟨plaintext, _, hplain', rfl, -, hto⟩ := hshort _ _ _ _ _ _ rfl
      (zeroShortOpener_opens true) rfl (by decide) h
    cases hplain.symm.trans hplain'
    exact ⟨_, packet, h, hto (by decide) 0⟩

/-- A payload of one byte behind a packet number of one byte: `appendInitialPacket` writes a
packet with 18 bytes after the header, which `UnpackLongHeader` finds too small for a
sample. -/
theorem appendInitialPacket_too_small : OpensLong zeroOpener zeroSealer ∧
    decodePacketNumber shortestHeader.packetNumberLen zeroOpener.highestRcvdPN
      (truncated shortestHeader.packetNumber shortestHeader.packetNumberLen) =
      shortestHeader.packetNumber ∧
    ∃ raw packet, PacketPacker.appendSealed [] shortestHeader pingPayload [0x1] zeroSealer =
        .ok (raw, packet) ∧
      Wire.parsePacket raw = .ok ((sealedHeader shortestHeader [0x1]).parsed, raw, []) ∧
      zeroUnpacker.unpackLongHeader (sealedHeader shortestHeader [0x1]).parsed raw =
        .error (.headerParse (.tooSmall 18)) :=
  ⟨zeroOpener_opens, by decide, _, _, rfl, by decide +kernel, by decide +kernel⟩

end PacketUnpacker

end UQuic
