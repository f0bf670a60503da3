/-
# `UQuic.InitialDatagram` — the shape of a datagram with a laid out Initial

The size of the Initial packet is fixed by its layout before any other packet is
chosen.  A Handshake packet and a packet with application data get what is left, and
padding fills the datagram up to its minimum size.

    long header packets | zeros                 padding after the last packet
    long header packets | short header packet   padding inside its sealed payload

A receiver takes the datagram apart with `ParsePacket`, packet by packet, until what is
left does not begin with a long header.  `splitDatagram` is that loop.

## What is proved

`packAfterInitial_meets`: every datagram with a laid out Initial has this shape, and no
error is returned once the layout is fixed — the program writes the datagram or panics.
-/
import UQuic.PacketSize
import UQuic.UPacketPacker

namespace UQuic

open List Except
open Wire (ExtendedHeader)
open PacketPacker

/-! ## Taking a datagram apart -/

/-- `ParsePacket` until it fails, at most as often as the first argument says: the packets and
what is left. -/
def parsePackets : Nat → List UInt8 → List (Wire.Header × List UInt8) × List UInt8
  | 0, b => ([], b)
  | n + 1, b =>
    match Wire.parsePacket b with
    | .error _ => ([], b)
    | .ok (h, packet, rest) => ((h, packet) :: (parsePackets n rest).1, (parsePackets n rest).2)

/-- `ParsePacket` until it fails. -/
def splitDatagram (b : List UInt8) : List (Wire.Header × List UInt8) × List UInt8 :=
  parsePackets b.length b

/-- The bytes of long header packets, one after the other. -/
inductive WrittenAll : List UInt8 → List LongHeaderPacket → Prop
  | nil : WrittenAll [] []
  | cons {raw buffer : List UInt8} {packet : LongHeaderPacket} {packets : List LongHeaderPacket} :
      WrittenAs raw packet → WrittenAll buffer packets →
      WrittenAll (raw ++ buffer) (packet :: packets)

variable {packets : List LongHeaderPacket}

variable {raw : List UInt8} {packet : LongHeaderPacket}

theorem WrittenAll.append {buffer : List UInt8}
    (h : WrittenAll buffer packets) (hw : WrittenAs raw packet) :
    WrittenAll (buffer ++ raw) (packets ++ [packet]) := by
  induction h with
  | nil =>
    rw [nil_append, ← append_nil raw]
    exact .cons hw .nil
  | cons hw' _ ih =>
    rw [append_assoc]
    exact .cons hw' ih

theorem PacketPacker.WrittenAs.length_pos (h : WrittenAs raw packet) : 0 < raw.length := by
  refine length_pos_iff.mpr ?_
  rintro rfl
  exact nomatch h.parses []

variable {buffer : List UInt8}

theorem WrittenAll.length_le (h : WrittenAll buffer packets) : packets.length ≤ buffer.length := by
  induction h with
  | nil => exact Nat.le_refl 0
  | cons hw _ ih =>
    have := hw.length_pos
    rw [length_append, length_cons]
    omega

variable {rest : List UInt8} {e : Wire.HeaderError}

/-- The packets are recovered up to what is not a long header packet. -/
theorem WrittenAll.parsePackets_eq
    (h : WrittenAll buffer packets) (hrest : Wire.parsePacket rest = .error e) :
    ∀ {n}, packets.length ≤ n →
    (parsePackets n (buffer ++ rest)).1.map (fun r => (r.1, r.2.length)) =
      packets.map (fun p => (p.header.parsed, p.length)) ∧
    (parsePackets n (buffer ++ rest)).2 = rest := by
  induction h with
  | nil =>
    intro n _
    cases n with
    | zero => exact ⟨rfl, rfl⟩
    | succ n =>
      rw [nil_append, parsePackets, hrest]
      exact ⟨rfl, rfl⟩
  | @cons raw buffer packet packets hw _ ih =>
    intro n hn
    cases n with
    | zero => exact absurd hn (Nat.not_succ_le_zero _)
    | succ n =>
      obtain ⟨ih1, ih2⟩ := ih (Nat.le_of_succ_le_succ hn)
      rw [append_assoc, parsePackets, hw.parses]
      refine ⟨?_, ih2⟩
      rw [map_cons, map_cons, ih1, hw.length_eq]

theorem WrittenAll.splitDatagram_eq
    (h : WrittenAll buffer packets) (hrest : Wire.parsePacket rest = .error e) :
    (splitDatagram (buffer ++ rest)).1.map (fun r => (r.1, r.2.length)) =
      packets.map (fun p => (p.header.parsed, p.length)) ∧
    (splitDatagram (buffer ++ rest)).2 = rest := by
  have hle := h.length_le
  exact h.parsePackets_eq hrest (by rw [length_append]; omega)

/-- Padding is not a packet. -/
theorem parsePacket_zeros (n : Nat) : ∃ e, Wire.parsePacket (List.replicate n 0x0) = .error e := by
  cases n with
  | zero | succ n => exact ⟨_, rfl⟩

namespace UPacketPacker

/-- A datagram with a laid out Initial. -/
structure Datagram (u : UPacketPacker) (maxSize : Int) (p : CoalescedPacket) : Prop where
  size_le : (p.buffer.length : Int) ≤ maxSize
  minSize_le : u.initialDatagramMinSize ≤ p.buffer.length
  /-- Exactly the packets are recovered, in order, each with its length. -/
  recovers : (splitDatagram p.buffer).1.map (fun r => (r.1, r.2.length)) =
    p.longHdrPackets.map fun l => (l.header.parsed, l.length)
  zeros : p.shortHdrPacket = none → ∀ b ∈ (splitDatagram p.buffer).2, b = 0x0
  /-- What is left is the short header packet, sealed as a whole. -/
  short : ∀ s, p.shortHdrPacket = some s → (splitDatagram p.buffer).2.length = s.length ∧
    ∃ sealer keyPhaseOne plaintext, u.cryptoSetup.oneRTT = some (sealer, keyPhaseOne) ∧
      (splitDatagram p.buffer).2 = encryptPacket (Wire.shortHeaderBytes u.destConnID
        (u.pnManager .oneRTT).1 (u.pnManager .oneRTT).2 keyPhaseOne) plaintext sealer
        (u.pnManager .oneRTT).1 (u.pnManager .oneRTT).2 0x1f

/-! ## The sizes of the packets that are chosen -/

theorem getLength_le {h : ExtendedHeader} (hinitial : h.type ≠ .initial) {l : Nat}
    (hl : h.getLength = some l) : l ≤ 53 := by
  rw [ExtendedHeader.getLength, if_neg hinitial] at hl
  have hdest : h.destConnectionID.bytes.length ≤ 20 := h.destConnectionID.le
  have hsrc : h.srcConnectionID.bytes.length ≤ 20 := h.srcConnectionID.le
  have hpn : h.packetNumberLen.toNat ≤ 4 := by
    cases h.packetNumberLen <;> decide
  cases hl
  omega

variable {size : Nat}

theorem roomForMore_iff {maxSize : Int} :
    roomForMore false maxSize size = true ↔ (size : Int) + 128 < maxSize := by
  have h : roomForMore false maxSize size = decide ((size : Int) < maxSize - 128) := rfl
  rw [h, decide_eq_true_iff]
  omega

/-- A long header packet that was chosen, and the size that was added for it. -/
structure LongChoice.Sized (c : LongChoice) (type : Wire.PacketType) (size size' : Nat) : Prop where
  consistent : c.payload.Consistent
  type_eq : c.hdr.type = type
  size_eq : ∃ l, c.hdr.getLength = some l ∧ size' = size +
    (l + c.payload.length + tinyPadding c.hdr.packetNumberLen c.payload.length + sealerOverhead)

theorem longHeaderPacketLength_meets (hdr : ExtendedHeader) (pl : Payload) :
    (longHeaderPacketLength hdr pl).Meets (fun l => ∃ hdrLen, hdr.getLength = some hdrLen ∧
        l = hdrLen + pl.length + tinyPadding hdr.packetNumberLen pl.length) PackFailure.Panics :=
  (orTooLarge_meets _).map fun l hl => ⟨l, hl, rfl⟩

variable (u : UPacketPacker) {maxSize : Int}

/-- The Handshake packet: it keeps to the budget if the datagram has a packet already. -/
theorem chooseHandshake_meets (onlyAck : Bool) (maxSize : Int) (size : Nat) :
    (u.chooseHandshake onlyAck maxSize size).Meets (fun r => (r.1 = none ∧ r.2 = size) ∨
        ∃ c, r.1 = some c ∧ c.Sized .handshake size r.2 ∧
          (onlyAck = false → 0 < size → maxSize < 16384 → (r.2 : Int) ≤ maxSize))
      PackFailure.Panics := by
  simp only [chooseHandshake]
  split_ifs with hroom
  · split
    · exact .inl ⟨rfl, rfl⟩
    · refine (maybeGetCryptoPacket_meets _ _ _ _ _ _ _ _).bind fun c hc => ?_
      split
      · exact .inl ⟨rfl, rfl⟩
      · rename_i hdr hhdr
        split
        · exact .inl ⟨rfl, rfl⟩
        · refine (longHeaderPacketLength_meets _ _).map ?_
          rintro _ ⟨l, hl, rfl⟩
          have htype : hdr.type = .handshake := by
            rw [hc.hdr hdr hhdr]
            rfl
          refine .inr ⟨_, rfl, ⟨hc.consistent, htype, l, hl, rfl⟩, ?_⟩
          rintro rfl hpos hmax
          have hroom := roomForMore_iff.mp hroom
          have h53 := getLength_le (by rw [htype]; exact nofun) hl
          have hle := hc.length_le rfl (beq_false_of_ne (Nat.ne_of_gt hpos)) hdr l hhdr hl
            (by simp only [sealerOverhead]; omega) (by simp only [sealerOverhead]; omega)
          simp only [sealerOverhead, tinyPadding] at hle ⊢
          omega
  · exact .inl ⟨rfl, rfl⟩

/-- The packet with application data, and the size that was added for it. -/
inductive AppChoice.Sized (u : UPacketPacker) (size : Nat) : AppChoice → Nat → Prop
  | none : Sized u size .none size
  | zeroRTT {c : LongChoice} {size' : Nat} : c.Sized .zeroRTT size size' →
      Sized u size (.zeroRTT c) size'
  | oneRTT {pl : Payload} {s : Sealer} {keyPhaseOne : Bool} : pl.Consistent →
      u.cryptoSetup.oneRTT = some (s, keyPhaseOne) →
      Sized u size (.oneRTT pl s keyPhaseOne) (size +
        (shortHeaderPacketLength u.destConnID (u.pnManager .oneRTT).2 pl + sealerOverhead))

theorem shortHeaderLen_le : Wire.shortHeaderLen u.destConnID (u.pnManager .oneRTT).2 ≤ 25 := by
  have hdest : u.destConnID.bytes.length ≤ 20 := u.destConnID.le
  have hpn : (u.pnManager .oneRTT).2.toNat ≤ 4 := by
    cases (u.pnManager .oneRTT).2 <;> decide
  rw [Wire.shortHeaderLen]
  omega

variable {s : Sealer}

theorem chooseOneRTT_meets (hpos : 0 < size)
    (hroom : (size : Int) + 128 < maxSize) {keyPhaseOne : Bool}
    (hs : u.cryptoSetup.oneRTT = some (s, keyPhaseOne)) :
    (u.chooseOneRTT false maxSize size s keyPhaseOne).Meets
      (fun r => AppChoice.Sized u size r.app r.size ∧
      (r.size : Int) ≤ maxSize) PackFailure.Panics := by
  have h25 := shortHeaderLen_le u
  have hz : (size == 0) = false := beq_false_of_ne (Nat.ne_of_gt hpos)
  simp only [chooseOneRTT, hz]
  have hbudget : 0 ≤ maxSize - size - Wire.shortHeaderLen u.destConnID (u.pnManager .oneRTT).2 -
      sealerOverhead := by
    simp only [sealerOverhead]
    omega
  refine (maybeGetAppDataPacket_meets _ hbudget).map ?_
  rintro ⟨pl, queue⟩ ⟨hcons, hle⟩
  dsimp only at hcons hle ⊢
  split
  · exact ⟨.none, by dsimp only; omega⟩
  · refine ⟨.oneRTT hcons hs, ?_⟩
    simp only [sealerOverhead, shortHeaderPacketLength, tinyPadding] at hle ⊢
    omega

theorem chooseZeroRTT_meets (hroom : (size : Int) + 128 < maxSize) (s : Sealer) :
    (u.chooseZeroRTT maxSize size s).Meets
      (fun r => AppChoice.Sized u size r.app r.size ∧
      (r.size : Int) ≤ maxSize) PackFailure.Panics := by
  simp only [chooseZeroRTT]
  refine (orTooLarge_meets _).bind fun hdrLen hhdrLen => ?_
  have h53 := getLength_le (show (u.getLongHeader .zeroRTT .zeroRTT).type ≠ .initial from nofun)
    hhdrLen
  have hbudget : 0 ≤ maxSize - size - hdrLen - sealerOverhead := by
    simp only [sealerOverhead]
    omega
  refine (maybeGetAppDataPacket_meets _ hbudget).bind ?_
  rintro ⟨pl, queue⟩ ⟨hcons, hle⟩
  dsimp only at hcons hle ⊢
  split
  · exact ⟨.none, by dsimp only; omega⟩
  · refine (longHeaderPacketLength_meets _ _).map ?_
    rintro _ ⟨l, hl, rfl⟩
    cases hl.symm.trans hhdrLen
    refine ⟨.zeroRTT ⟨hcons, rfl, hdrLen, hl, rfl⟩, ?_⟩
    simp only [sealerOverhead, tinyPadding] at hle ⊢
    omega

/-- The packet with application data of a datagram that has a packet already. -/
theorem chooseAppData_meets (hpos : 0 < size) : (u.chooseAppData false maxSize size).Meets
      (fun r => AppChoice.Sized u size r.app r.size ∧ ((r.size : Int) ≤ maxSize ∨ r.size = size))
      PackFailure.Panics := by
  simp only [chooseAppData]
  split
  · rename_i hroom
    have hroom := roomForMore_iff.mp hroom
    split
    · rename_i s keyPhaseOne hs
      exact (chooseOneRTT_meets u hpos hroom hs).mono fun r hr => ⟨hr.1, .inl hr.2⟩
    · split
      · split
        · exact ⟨.none, .inr rfl⟩
        · exact (chooseZeroRTT_meets u hroom _).mono fun r hr => ⟨hr.1, .inl hr.2⟩
      · exact ⟨.none, .inr rfl⟩
  · exact ⟨.none, .inr rfl⟩

/-! ## Writing the packets that were chosen -/

variable {c : LongChoice}

variable {size' : Nat}

theorem appendChoice_meets (hw : WrittenAll buffer packets)
    {type : Wire.PacketType} (hc : c.Sized type buffer.length size') (hretry : type ≠ .retry) :
    (u.appendChoice buffer packets (some c)).Meets
      (fun r => WrittenAll r.1 r.2 ∧ r.1.length = size') PackFailure.Panics := by
  have hretry : c.hdr.type ≠ .retry := by
    rw [hc.type_eq]
    exact hretry
  refine (appendLongHeaderPacket_meets _ _ hretry hc.consistent _ _).map ?_
  rintro ⟨b, q⟩ ⟨plaintext, raw, hsealed, hlen, -⟩
  obtain ⟨l, hl, hsize⟩ := hc.size_eq
  obtain ⟨l', hl', hraw⟩ := hsealed.size_eq
  cases hl.symm.trans hl'
  have hb : b = buffer ++ raw := hsealed.buffer_eq
  refine ⟨?_, ?_⟩
  · show WrittenAll b (packets ++ [q])
    rw [hb]
    exact hw.append hsealed.written
  · show b.length = size'
    rw [hb, length_append, hraw, hlen, hsize]
    omega

/-- What is in the datagram: long header packets, and behind them nothing yet, or the short
header packet with its padding. -/
inductive Filled (u : UPacketPacker) (size : Nat) : CoalescedPacket → Prop
  | long {buffer : List UInt8} {packets : List LongHeaderPacket} : WrittenAll buffer packets →
      buffer.length = size → Filled u size ⟨buffer, packets, none⟩
  | short {buffer plaintext raw : List UInt8} {packets : List LongHeaderPacket} {s : Sealer}
      {keyPhaseOne : Bool} {r : List UInt8 × ShortHeaderPacket} : WrittenAll buffer packets →
      u.cryptoSetup.oneRTT = some (s, keyPhaseOne) →
      SealedShort u.toPacketPacker buffer s keyPhaseOne plaintext raw r →
      (r.1.length : Int) = max (size : Int) u.initialDatagramMinSize →
      Filled u size ⟨r.1, packets, some r.2⟩

variable {app : AppChoice}

theorem appendAppData_meets (hw : WrittenAll buffer packets)
    (happ : AppChoice.Sized u buffer.length app size') {maxSize : Int}
    (hmin : u.initialDatagramMinSize ≤ maxSize)
    (hle : (size' : Int) ≤ maxSize ∨ size' = buffer.length) :
    (u.appendAppData buffer packets true size' maxSize app).Meets (Filled u size')
      PackFailure.Panics := by
  cases happ with
  | none => exact .long hw rfl
  | zeroRTT hc =>
    exact (appendChoice_meets u hw hc nofun).map fun _ hb => .long hb.1 hb.2
  | @oneRTT pl s keyPhaseOne hcons hs =>
    have hbound : (shortHeaderPacketLength u.destConnID (u.pnManager .oneRTT).2 pl +
        (u.initialDatagramMinSize - ((buffer.length + (shortHeaderPacketLength u.destConnID
          (u.pnManager .oneRTT).2 pl + sealerOverhead) : Nat) : Int)).toNat + sealerOverhead :
            Nat) ≤ maxSize := by
      simp only [sealerOverhead] at hle ⊢
      omega
    refine (appendShortHeaderPacket_meets _ buffer hcons hbound s _).map ?_
    rintro ⟨b, q⟩ ⟨plaintext, raw, hsealed, hlen⟩
    refine .short (r := (b, q)) hw hs hsealed ?_
    have hb : b = buffer ++ raw := hsealed.buffer_eq
    have hraw := hsealed.size_eq
    show (b.length : Int) = _
    rw [hb, length_append, hraw, hlen]
    simp only [shortHeaderPacketLength]
    omega

variable {p : CoalescedPacket}

theorem Filled.datagram {u : UPacketPacker}
    (h : Filled u size p) {maxSize : Int} (hle : (size : Int) ≤ maxSize)
    (hmin : u.initialDatagramMinSize ≤ maxSize) : u.Datagram maxSize (u.finish true p) := by
  have hfinish : u.finish true p = { p with buffer := u.padInitialDatagram p.buffer } := rfl
  rw [hfinish]
  cases h with
  | @long buffer packets hw hsize =>
    have hlen : (u.padInitialDatagram buffer).length =
        buffer.length + (u.initialDatagramMinSize - buffer.length).toNat := by
      rw [padInitialDatagram, length_append, length_replicate]
    obtain ⟨e, he⟩ := parsePacket_zeros (u.initialDatagramMinSize - buffer.length).toNat
    obtain ⟨hpackets, hrest⟩ := hw.splitDatagram_eq he
    refine ⟨?_, ?_, hpackets, fun _ b hb => ?_, nofun⟩
    · show ((u.padInitialDatagram buffer).length : Int) ≤ maxSize
      omega
    · show u.initialDatagramMinSize ≤ (u.padInitialDatagram buffer).length
      omega
    · rw [show splitDatagram _ = splitDatagram (u.padInitialDatagram buffer) from rfl,
        padInitialDatagram, hrest] at hb
      exact eq_of_mem_replicate hb
  | @short buffer plaintext raw packets s keyPhaseOne r hw hs hsealed hsize =>
    -- the datagram has its minimum size already
    have hno : (u.initialDatagramMinSize - r.1.length).toNat = 0 := by omega
    have hpad : u.padInitialDatagram r.1 = buffer ++ raw := by
      rw [padInitialDatagram, hno, replicate_zero, append_nil]
      exact hsealed.buffer_eq
    obtain ⟨hpackets, hrest⟩ := hw.splitDatagram_eq hsealed.notLong
    rw [← hsealed.buffer_eq] at hpad
    rw [← hsealed.buffer_eq] at hpackets hrest
    simp only [hpad]
    refine ⟨?_, ?_, hpackets, nofun, fun s' hs' => ?_⟩
    · dsimp only
      omega
    · dsimp only
      omega
    · cases hs'
      dsimp only
      rw [hrest]
      exact ⟨hsealed.length_eq.symm, s, keyPhaseOne, plaintext, hs, hsealed.raw_eq⟩

/-! ## The Initial packet comes first -/

/-- An Initial packet with a layout that keeps to the budget. -/
structure Ready (u : UPacketPacker) (maxSize : Int) (r : Prepared) (hdr : ExtendedHeader)
    (data : List UInt8) : Prop where
  hdr_eq : r.hdr = some hdr
  type_eq : hdr.type = .initial
  data_eq : r.data = some data
  frames_ne : r.payload.frames ≠ []
  size_le : ∃ hdrLen, hdr.getLength = some hdrLen ∧
    ((hdrLen + data.length + sealerOverhead : Nat) : Int) ≤ maxSize
  minSize_le : u.initialDatagramMinSize ≤ maxSize

variable {pl : Payload}

theorem dropEmptyCrypto_eq_ok {pl' : Payload} (h : dropEmptyCrypto pl = .ok pl') :
    pl' = pl ∨ (pl'.frames = [] ∧ pl'.ack = pl.ack ∧ pl'.streamFrames = pl.streamFrames) := by
  rw [dropEmptyCrypto.eq_def] at h
  split at h
  · split at h
    · obtain ⟨l, -, rfl⟩ := map_eq_ok_iff.mp h
      exact .inr ⟨rfl, rfl, rfl⟩
    · exact .inl (Except.ok.inj h).symm
  · exact .inl (Except.ok.inj h).symm

/-- The copy of the queue has data only if the queue has. -/
theorem stage_hasData (onlyAck : Bool) (q : LevelQueue)
    (h : { q with cryptoData := (u.stage onlyAck q.cryptoData).1 }.hasData = true) :
    q.hasData = true := by
  have hnil : q.cryptoData = [] → (u.stage onlyAck q.cryptoData).1 = [] := by
    intro hq
    rw [hq, stage, if_neg (by simp)]
  simp only [LevelQueue.hasData, Bool.or_eq_true, Bool.not_eq_true', isEmpty_eq_false_iff]
    at h ⊢
  exact h.imp_left fun hne hq => hne (hnil hq)

theorem collect_collected {u : UPacketPacker} {maxSize : Int} {onlyAck : Bool} {c : CryptoPacket}
    (h : u.collect maxSize onlyAck = .ok c) :
    Collected u.toPacketPacker u.initialStream
      { u.retransmissionQueue.initial with
        cryptoData := (u.stage onlyAck u.retransmissionQueue.initial.cryptoData).1 }
      (maxSize - sealerOverhead) .initial .initial onlyAck true c :=
  (maybeGetCryptoPacket_meets _ _ _ _ _ _ _ _).of_eq_ok h

variable {r : Prepared}

/-- A prepared packet is laid out within the budget, or carries an ACK at most. -/
theorem Prepares.ready {u : UPacketPacker} {maxSize : Int} {onlyAck : Bool}
    (h : Prepares u maxSize onlyAck r) :
    (onlyAck = false ∧ ∃ hdr data, Ready u maxSize r hdr data) ∨
      (r.data = none ∧ (r.payload.length = 0 ∨ r.payload.frames = [])) := by
  cases h with
  | @nothing c pl hc hpl hnone =>
    have hempty := (collect_collected hc).empty hnone
    rw [hempty] at hpl
    cases hpl
    exact .inr ⟨rfl, .inl rfl⟩
  | @noFrames c pl hdr hc hpl hhdr hno =>
    refine .inr ⟨rfl, ?_⟩
    rcases hno with hz | honly | hnil
    · exact .inl hz
    · have hframes := (collect_collected hc).onlyAck_frames honly
      rcases dropEmptyCrypto_eq_ok hpl with rfl | ⟨hnil, -, -⟩
      · exact .inr hframes
      · exact .inr hnil
    · exact .inr hnil
  | @laidOut c pl hdr hdrLen r hc hpl hhdr hlen hmin honly hframes hlay =>
    obtain ⟨data, cryptoEnd, ackLen, k, hl⟩ := layOutInitial_eq_ok hlay
    have hcollected := collect_collected hc
    have hr := hl.prepared
    by_cases hk : k.frames = []
    · rw [hk, isEmpty_nil, if_pos rfl] at hr
      exact .inr ⟨by rw [hr], .inr (by rw [hr])⟩
    · rw [if_neg (by rwa [List.isEmpty_iff])] at hr
      have hsize := hl.size_le
      refine .inl ⟨honly, hdr, _, ⟨by rw [hr], ?_, by rw [hr], by rw [hr]; exact hk,
        ⟨hdrLen, hlen, ?_⟩, hmin honly ?_⟩⟩
      · rw [hcollected.hdr hdr hhdr]
        rfl
      · rw [length_append, length_replicate]
        omega
      · have hne : c.payload.frames ≠ [] := by
          rcases dropEmptyCrypto_eq_ok hpl with rfl | ⟨hnil, -, -⟩
          · exact hframes
          · exact absurd hnil hframes
        exact (hcollected.hasData hne).imp_right (stage_hasData u onlyAck _)

variable {data : List UInt8} {hdr : ExtendedHeader}

/-- The laid out Initial packet is the first one. -/
theorem appendInitial_meets (h : Ready u maxSize r hdr data)
    (hpos : r.payload.length ≠ 0) (s : Sealer) (size : Nat) :
    (u.appendInitial r s false size maxSize).Meets (fun b => WrittenAll b.1 b.2 ∧
        (∃ hdrLen, hdr.getLength = some hdrLen ∧
          b.1.length = hdrLen + data.length + sealerOverhead) ∧
        ∃ q, b.2 = [q] ∧ q.header.type = .initial ∧ q.frames = r.payload.frames ∧
          q.plaintext = data) PackFailure.Panics := by
  simp only [appendInitial, h.hdr_eq, if_neg hpos, h.frames_ne, h.data_eq, Option.getD_some,
    Bool.false_eq_true, or_self, if_false]
  have hretry : hdr.type ≠ .retry := by
    rw [h.type_eq]
    exact nofun
  refine (appendSealed_meets _ hretry _ _ _).map ?_
  rintro ⟨b, q⟩ ⟨raw, hsealed⟩
  have hb : b = raw := hsealed.buffer_eq
  refine ⟨?_, ?_, q, rfl, hsealed.type_eq.trans h.type_eq, hsealed.frames_eq, hsealed.plaintext_eq⟩
  · show WrittenAll b [q]
    rw [hb, ← append_nil raw]
    exact .cons hsealed.written .nil
  · show ∃ hdrLen, _ ∧ b.length = _
    rw [hb]
    exact hsealed.size_eq

/-- One Initial packet, which carries the layout, and packets of other types. -/
def InitialFirst (r : Prepared) (data : List UInt8) (packets : List LongHeaderPacket) : Prop :=
  ∃ q qs, packets = q :: qs ∧ q.header.type = .initial ∧ q.frames = r.payload.frames ∧
    q.plaintext = data ∧ ∀ q' ∈ qs, q'.header.type ≠ .initial

theorem assemble_meets (h : Ready u maxSize r hdr data) (hpos : r.payload.length ≠ 0) (s : Sealer)
    {hdrLen size₁ size₂ : Nat} (hlen : hdr.getLength = some hdrLen) {hs : Option LongChoice}
    (hhs : (hs = none ∧ size₁ = hdrLen + data.length + sealerOverhead) ∨
      ∃ c, hs = some c ∧ c.Sized .handshake (hdrLen + data.length + sealerOverhead) size₁)
    (happ : AppChoice.Sized u size₁ app size₂) (hle : (size₂ : Int) ≤ maxSize ∨ size₂ = size₁) :
    (u.assemble r s false hs app size₂ maxSize).Meets
      (fun p => ∃ p', Filled u size₂ p' ∧ p = u.finish true p') PackFailure.Panics := by
  refine (appendInitial_meets u h hpos s size₂).bind ?_
  rintro ⟨buffer, packets⟩ ⟨hw, ⟨l, hl, hbuffer⟩, -⟩
  cases hl.symm.trans hlen
  have hhandshake : (u.appendChoice buffer packets hs).Meets
      (fun b => WrittenAll b.1 b.2 ∧ b.1.length = size₁) PackFailure.Panics := by
    rcases hhs with ⟨rfl, rfl⟩ | ⟨c, rfl, hc⟩
    · exact ⟨hw, hbuffer⟩
    · rw [← hbuffer] at hc
      exact appendChoice_meets u hw hc nofun
  refine hhandshake.bind ?_
  rintro ⟨buffer₁, packets₁⟩ ⟨hw₁, hbuffer₁⟩
  rw [← hbuffer₁] at happ hle
  rw [h.data_eq]
  exact (appendAppData_meets u hw₁ happ h.minSize_le hle).map fun p hp =>
    ⟨p, hp, rfl⟩

/-! ## Which packets are Initial packets -/

variable {b : List UInt8}

section Types

variable {u : UPacketPacker} {maxSize : Int} {onlyAck : Bool} {q : LongHeaderPacket}

variable {header : ExtendedHeader}

theorem appendSealed_eq_ok {buffer data : List UInt8}
    (h : appendSealed buffer header pl data s = .ok (b, q)) :
    q.header.type = header.type ∧ q.frames = pl.frames := by
  obtain ⟨hdr, -, h⟩ := bind_eq_ok_iff.mp h
  obtain ⟨b', -, h⟩ := map_eq_ok_iff.mp h
  cases h
  exact ⟨rfl, rfl⟩

theorem appendLongHeaderPacket_eq_ok {p : PacketPacker} {buffer : List UInt8} {padding : Nat}
    (h : p.appendLongHeaderPacket buffer header pl padding s = .ok (b, q)) :
    q.header.type = header.type ∧ q.frames = pl.frames := by
  obtain ⟨plaintext, -, h⟩ := bind_eq_ok_iff.mp h
  exact appendSealed_eq_ok h

theorem appendChoice_eq_ok {buffer : List UInt8} {packets ps : List LongHeaderPacket}
    {o : Option LongChoice} (h : u.appendChoice buffer packets o = .ok (b, ps)) :
    ∃ qs, ps = packets ++ qs ∧ ∀ q ∈ qs, ∃ c, o = some c ∧ q.header.type = c.hdr.type := by
  cases o with
  | none =>
    cases h
    exact ⟨[], (append_nil _).symm, forall_mem_nil _⟩
  | some c =>
    obtain ⟨⟨b', q⟩, hq, h⟩ := map_eq_ok_iff.mp h
    cases h
    refine ⟨[q], rfl, fun q' hq' => ⟨c, rfl, ?_⟩⟩
    rw [mem_singleton.mp hq']
    exact (appendLongHeaderPacket_eq_ok hq).1

theorem appendAppData_eq_ok {laidOut : Bool}
    (h : u.appendAppData buffer packets laidOut size maxSize app = .ok p) :
    ∃ qs, p.longHdrPackets = packets ++ qs ∧
      ∀ q ∈ qs, ∃ c, app = .zeroRTT c ∧ q.header.type = c.hdr.type := by
  cases app with
  | none =>
    cases h
    exact ⟨[], (append_nil _).symm, forall_mem_nil _⟩
  | zeroRTT c =>
    obtain ⟨⟨b, ps⟩, hps, h⟩ := map_eq_ok_iff.mp h
    cases h
    obtain ⟨qs, hqs, htypes⟩ := appendChoice_eq_ok hps
    refine ⟨qs, hqs, fun q hq => ?_⟩
    obtain ⟨c', hc', htype⟩ := htypes q hq
    cases hc'
    exact ⟨c, rfl, htype⟩
  | oneRTT pl s keyPhaseOne =>
    obtain ⟨⟨b, q⟩, -, h⟩ := map_eq_ok_iff.mp h
    cases h
    exact ⟨[], (append_nil _).symm, forall_mem_nil _⟩

theorem chooseHandshake_type (h : u.chooseHandshake onlyAck maxSize size = .ok (some c, size')) :
    c.hdr.type = .handshake := by
  rcases (chooseHandshake_meets u onlyAck maxSize size).of_eq_ok h
    with ⟨hno, -⟩ | ⟨c', hc, hsized, -⟩
  · cases hno
  · cases hc
    exact hsized.type_eq

theorem chooseAppData_type {a : AppChosen} (h : u.chooseAppData onlyAck maxSize size = .ok a)
    (ha : a.app = .zeroRTT c) : c.hdr.type = .zeroRTT := by
  simp only [chooseAppData] at h
  split at h
  · split at h
    · obtain ⟨pl, -, h⟩ := map_eq_ok_iff.mp h
      dsimp only at h
      split at h <;> subst h <;> cases ha
    · split at h
      · split at h
        · cases h
          cases ha
        · rw [chooseZeroRTT] at h
          obtain ⟨hdrLen, -, h⟩ := bind_eq_ok_iff.mp h
          obtain ⟨pl, -, h⟩ := bind_eq_ok_iff.mp h
          dsimp only at h
          split at h
          · cases h
            cases ha
          · obtain ⟨l, -, h⟩ := map_eq_ok_iff.mp h
            subst h
            cases ha
            rfl
      · cases h
        cases ha
  · cases h
    cases ha

/-- The Initial packets of a datagram are the one that was prepared. -/
theorem packAfterInitial_eq_ok (h : u.packAfterInitial r s onlyAck maxSize = .ok (some p)) :
    ∃ size buffer packets qs, u.appendInitial r s onlyAck size maxSize = .ok (buffer, packets) ∧
      p.longHdrPackets = packets ++ qs ∧ ∀ q ∈ qs, q.header.type ≠ .initial := by
  obtain ⟨⟨hs, a⟩, hrest, h⟩ := bind_eq_ok_iff.mp h
  obtain ⟨size, -, hrest⟩ := bind_eq_ok_iff.mp hrest
  obtain ⟨⟨hs', size₁⟩, hhs, hrest⟩ := bind_eq_ok_iff.mp hrest
  obtain ⟨a', happ, hrest⟩ := map_eq_ok_iff.mp hrest
  cases hrest
  dsimp only at h
  split at h
  · cases h
  · obtain ⟨p', hp, h⟩ := map_eq_ok_iff.mp h
    cases h
    obtain ⟨⟨b, packets⟩, hinitial, hp⟩ := bind_eq_ok_iff.mp hp
    obtain ⟨⟨b₁, packets₁⟩, hchoice, hp⟩ := bind_eq_ok_iff.mp hp
    obtain ⟨p'', happData, hfinish⟩ := map_eq_ok_iff.mp hp
    obtain ⟨qs, rfl, hqs⟩ := appendChoice_eq_ok hchoice
    obtain ⟨qs', hqs', htypes⟩ := appendAppData_eq_ok happData
    refine ⟨a.size, b, packets, qs ++ qs', hinitial, ?_, ?_⟩
    · rw [← hfinish, ← append_assoc, ← hqs', finish]
      split <;> rfl
    · intro q hq
      rcases mem_append.mp hq with hq | hq
      · obtain ⟨c, rfl, htype⟩ := hqs q hq
        rw [htype, chooseHandshake_type hhs]
        exact nofun
      · obtain ⟨c, hc, htype⟩ := htypes q hq
        rw [htype, chooseAppData_type happ hc]
        exact nofun

end Types

/-- What a datagram with a laid out Initial is. -/
structure Packed (u : UPacketPacker) (maxSize : Int) (r : Prepared) (data : List UInt8)
    (p : CoalescedPacket) : Prop where
  initial : InitialFirst r data p.longHdrPackets
  datagram : maxSize < 16384 → u.Datagram maxSize p

/-- The packets behind an Initial packet of `size` bytes. -/
theorem chooseRest_meets {size : Nat} (hsize : initialSize r = .ok size) (hpos : 0 < size)
    (hle : (size : Int) ≤ maxSize) : (u.chooseRest r false maxSize).Meets
      (fun x => ∃ size₁, (x.1 = none ∧ size₁ = size ∨
          ∃ c, x.1 = some c ∧ c.Sized .handshake size size₁) ∧
        AppChoice.Sized u size₁ x.2.app x.2.size ∧ (maxSize < 16384 → (size₁ : Int) ≤ maxSize) ∧
        ((x.2.size : Int) ≤ maxSize ∨ x.2.size = size₁)) PackFailure.Panics := by
  rw [chooseRest, hsize]
  refine Meets.bind (meets_ok.mpr ?_) fun _ h => h
  refine (chooseHandshake_meets u false maxSize _).bind ?_
  rintro ⟨hs, size₁⟩ hhs
  have hsize₁ : 0 < size₁ ∧ (maxSize < 16384 → (size₁ : Int) ≤ maxSize) := by
    rcases hhs with ⟨-, rfl⟩ | ⟨c, -, hc, hle₁⟩
    · exact ⟨hpos, fun _ => hle⟩
    · obtain ⟨l, -, rfl⟩ := hc.size_eq
      exact ⟨by omega, hle₁ rfl hpos⟩
  refine (chooseAppData_meets u hsize₁.1).map ?_
  rintro a ⟨happ, hle₂⟩
  exact ⟨size₁, hhs.imp_right fun ⟨c, hc, hsized, _⟩ => ⟨c, hc, hsized⟩, happ, hsize₁.2, hle₂⟩

/-- Once the layout is fixed, the datagram is written or the program panics. -/
theorem packAfterInitial_meets (h : Ready u maxSize r hdr data)
    (hpos : r.payload.length ≠ 0) (s : Sealer) : (u.packAfterInitial r s false maxSize).Meets
      (fun o => ∃ p, o = some p ∧ Packed u maxSize r data p) PackFailure.Panics := by
  suffices hdatagram : (u.packAfterInitial r s false maxSize).Meets
      (fun o => ∃ p, o = some p ∧ (maxSize < 16384 → u.Datagram maxSize p)) PackFailure.Panics by
    refine hdatagram.mono_eq ?_
    rintro _ hok ⟨p, rfl, hp⟩
    obtain ⟨size, buffer, packets, qs, hinitial, hpackets, hqs⟩ := packAfterInitial_eq_ok hok
    obtain ⟨-, -, q, rfl, hq⟩ := (appendInitial_meets u h hpos s size).of_eq_ok hinitial
    exact ⟨p, rfl, ⟨q, qs, hpackets, hq.1, hq.2.1, hq.2.2, hqs⟩, hp⟩
  obtain ⟨hdrLen, hlen, hle⟩ := h.size_le
  have hsize : initialSize r = .ok (hdrLen + data.length + sealerOverhead) := by
    simp only [initialSize, h.hdr_eq, h.data_eq, if_neg hpos, hlen]
    rfl
  have hsize_pos : 0 < hdrLen + data.length + sealerOverhead :=
    Nat.lt_of_lt_of_le (by decide) (Nat.le_add_left sealerOverhead _)
  refine (chooseRest_meets u hsize hsize_pos hle).bind ?_
  rintro ⟨hs, a⟩ ⟨size₁, hhs, happ, hle₁, hle₂⟩
  dsimp only
  rw [if_neg fun hno => hpos hno.1]
  refine (assemble_meets u h hpos s hlen hhs happ hle₂).map ?_
  rintro _ ⟨p, hfilled, rfl⟩
  refine ⟨_, rfl, fun hmax => hfilled.datagram ?_ h.minSize_le⟩
  rcases hle₂ with hle₂ | heq
  · exact hle₂
  · rw [heq]
    exact hle₁ hmax

/-- The same for a probe packet, which is alone in its datagram. -/
theorem probeInitial_meets (h : Ready u maxSize r hdr data)
    (hpos : r.payload.length ≠ 0) (s : Sealer) : (u.probeInitial r s maxSize).Meets
      (fun o => ∃ p, o = some p ∧ Packed u maxSize r data p) PackFailure.Panics := by
  obtain ⟨hdrLen, hlen, hle⟩ := h.size_le
  have hretry : hdr.type ≠ .retry := by
    rw [h.type_eq]
    exact nofun
  simp only [probeInitial, h.hdr_eq, if_neg hpos, h.data_eq]
  refine (longHeaderPacketLength_meets _ _).bind fun _ _ => ?_
  refine (appendSealed_meets _ hretry _ _ _).map ?_
  rintro ⟨b, q⟩ ⟨raw, hsealed⟩
  have hb : b = raw := hsealed.buffer_eq
  obtain ⟨l, hl, hraw⟩ := hsealed.size_eq
  cases hl.symm.trans hlen
  have hw : WrittenAll b [q] := by
    rw [hb, ← append_nil raw]
    exact .cons hsealed.written .nil
  have hfilled : Filled u b.length ⟨b, [q], none⟩ := .long hw rfl
  refine ⟨_, rfl, ⟨q, [], rfl, hsealed.type_eq.trans h.type_eq, hsealed.frames_eq,
    hsealed.plaintext_eq, forall_mem_nil _⟩, fun _ => hfilled.datagram ?_ h.minSize_le⟩
  rw [hb, hraw]
  exact hle

/-! ## Packets with frames -/

section Packets

variable {u : UPacketPacker} {maxSize : Int} {onlyAck : Bool} {q : LongHeaderPacket}

theorem appendInitial_eq_ok (h : u.appendInitial r s onlyAck size maxSize = .ok (b, packets)) :
    ∀ q ∈ packets, ∃ hdr, r.hdr = some hdr ∧ q.header.type = hdr.type ∧
      q.frames = r.payload.frames ∧ r.payload.length ≠ 0 := by
  simp only [appendInitial] at h
  split at h
  · cases h
    exact forall_mem_nil _
  · rename_i hdr hhdr
    split at h
    · cases h
      exact forall_mem_nil _
    · rename_i hpos
      split at h
      · obtain ⟨⟨b', q⟩, hq, h⟩ := map_eq_ok_iff.mp h
        cases h
        obtain ⟨htype, hframes⟩ := appendLongHeaderPacket_eq_ok hq
        exact forall_mem_singleton.mpr ⟨hdr, hhdr, htype, hframes, hpos⟩
      · obtain ⟨⟨b', q⟩, hq, h⟩ := map_eq_ok_iff.mp h
        cases h
        obtain ⟨htype, hframes⟩ := appendSealed_eq_ok hq
        exact forall_mem_singleton.mpr ⟨hdr, hhdr, htype, hframes, hpos⟩

theorem probeInitial_eq_ok (h : u.probeInitial r s maxSize = .ok (some p)) :
    ∀ q ∈ p.longHdrPackets, q.frames = r.payload.frames ∧ r.payload.length ≠ 0 := by
  simp only [probeInitial] at h
  split at h
  · cases h
  · split_ifs at h with hpos
    · cases h
    · obtain ⟨l, -, h⟩ := bind_eq_ok_iff.mp h
      split at h
      · obtain ⟨⟨b, q⟩, hq, h⟩ := map_eq_ok_iff.mp h
        cases h
        exact forall_mem_singleton.mpr ⟨(appendLongHeaderPacket_eq_ok hq).2, hpos⟩
      · obtain ⟨⟨b, q⟩, hq, h⟩ := map_eq_ok_iff.mp h
        cases h
        exact forall_mem_singleton.mpr ⟨(appendSealed_eq_ok hq).2, hpos⟩

/-- A packet with a frame is laid out. -/
theorem Prepares.ready_of_frames (h : Prepares u maxSize onlyAck r)
    (hframes : r.payload.frames ≠ []) (hpos : r.payload.length ≠ 0) :
    onlyAck = false ∧ ∃ hdr data, Ready u maxSize r hdr data := by
  rcases h.ready with hready | ⟨-, hz | hnil⟩
  · exact hready
  · exact absurd hz hpos
  · exact absurd hnil hframes

theorem packCoalescedPacket_datagram (hmax : maxSize < 16384)
    (h : (u.packCoalescedPacket false maxSize).2 = .ok (some p))
    (hq : q ∈ p.longHdrPackets) (htype : q.header.type = .initial) (hframes : q.frames ≠ []) :
    u.Datagram maxSize p := by
  -- the packet comes from the prepared payload, whoever prepared it
  have horigin : ∀ {r : Prepared} {s : Sealer},
      u.packAfterInitial r s false maxSize = .ok (some p) →
      r.payload.frames ≠ [] ∧ r.payload.length ≠ 0 := by
    intro r s hr
    obtain ⟨size, buffer, packets, qs, hinitial, hpackets, hqs⟩ := packAfterInitial_eq_ok hr
    rw [hpackets] at hq
    rcases mem_append.mp hq with hq | hq
    · obtain ⟨-, -, -, hqframes, hpos⟩ := appendInitial_eq_ok hinitial q hq
      exact ⟨hqframes ▸ hframes, hpos⟩
    · exact absurd htype (hqs q hq)
  simp only [packCoalescedPacket] at h
  split at h
  · have h : u.packAfterInitial (.nothing u) noSealer false maxSize = .ok (some p) := h
    obtain ⟨-, hpos⟩ := horigin h
    exact absurd rfl hpos
  · rename_i s _
    split at h
    · cases h
    · rename_i r hr
      obtain ⟨hrframes, hpos⟩ := horigin h
      obtain ⟨-, hdr, data, hready⟩ :=
        (prepareInitialPacket_eq_ok hr).ready_of_frames hrframes hpos
      obtain ⟨p', hp', hpacked⟩ := (packAfterInitial_meets u hready hpos s).of_eq_ok h
      cases hp'
      exact hpacked.datagram hmax

theorem maybePackPTOProbePacket_datagram (hmax : maxSize < 16384)
    (h : (u.maybePackPTOProbePacket .initial maxSize).2 = .ok (some p))
    (hq : q ∈ p.longHdrPackets) (hframes : q.frames ≠ []) : u.Datagram maxSize p := by
  simp only [maybePackPTOProbePacket] at h
  split at h
  · cases h
  · rename_i s _
    split at h
    · cases h
    · rename_i r hr
      obtain ⟨hqframes, hpos⟩ := probeInitial_eq_ok h q hq
      obtain ⟨-, hdr, data, hready⟩ :=
        (prepareInitialPacket_eq_ok hr).ready_of_frames (hqframes ▸ hframes) hpos
      obtain ⟨p', hp', hpacked⟩ := (probeInitial_meets u hready hpos s).of_eq_ok h
      cases hp'
      exact hpacked.datagram hmax

end Packets

/-- **The shape of an Initial datagram.**  For every packer — specification, keys, crypto
streams, retransmission queues, pending ACKs, application frames — and every budget up to the
size of a packet buffer: a datagram that contains an Initial with a frame other than ACK has
between the minimum size and the budget many bytes, and `ParsePacket` recovers exactly its
long header packets, followed by zeros or by the short header packet. -/
theorem initialDatagram_shape (u : UPacketPacker) (maxSize : Int) (p : CoalescedPacket)
    (hmax : maxSize ≤ maxPacketBufferSize)
    (h : (u.packCoalescedPacket false maxSize).2 = .ok (some p) ∨
      (u.maybePackPTOProbePacket .initial maxSize).2 = .ok (some p))
    (hinitial : ∃ q ∈ p.longHdrPackets, q.header.type = .initial ∧ q.frames ≠ []) :
    u.Datagram maxSize p := by
  obtain ⟨q, hq, htype, hframes⟩ := hinitial
  have hmax : maxSize < 16384 := hmax.trans_lt (by decide)
  rcases h with h | h
  · exact packCoalescedPacket_datagram hmax h hq htype hframes
  · exact maybePackPTOProbePacket_datagram hmax h hq hframes

/-- A `clienthellod` that reads frames with the parser of this package. -/
def parserClienthellod : Clienthellod where
  readAllFrames := Wire.Frame.parseAll
  reassembleCRYPTOFrames fs := some ((fs.filterMap Wire.Frame.crypto?).flatMap (·.data))
  read fs h := by
    have hreads := Wire.Reads.flatMap Wire.CryptoFrame.bytes (fun f => [Wire.Frame.crypto f]) fs
      fun f hf => .crypto (h f hf)
    rw [hreads.parseAll_eq, List.map_eq_flatMap]
  reassemble base fs _ := by
    have hcrypto : fs.filterMap (Wire.Frame.crypto? ∘ Wire.Frame.crypto) = fs := List.filterMap_some
    rw [List.filterMap_map, hcrypto]

/-- A client with three bytes of crypto data, 1-RTT keys and a frame to send with them. -/
def threeBytesClient : UPacketPacker where
  srcConnID := .single 1
  destConnID := .single 2
  perspective := .client
  cryptoSetup := ⟨some noSealer, none, none, some (noSealer, false)⟩
  initialStream := ⟨0, [7, 8, 9]⟩
  handshakeStream := ⟨0, []⟩
  token := []
  pnManager _ := (0, .one)
  framer := ⟨[], [], [[0x1e]], [], none⟩
  acks _ _ := none
  acks_sendable := noAck_sendable
  datagramQueue := none
  retransmissionQueue := ⟨⟨[], []⟩, ⟨[], []⟩, []⟩
  numNonAckElicitingAcks := 0
  swap _ := 0
  version := .v1
  uSpec := ⟨.none, 100⟩
  clienthellod := parserClienthellod
  offsetSort := ⟨fun l => l.insertionSort fun a b => a.offset ≤ b.offset,
    fun l => List.perm_insertionSort _ l, fun l => List.pairwise_insertionSort _ l⟩
  choices := ⟨none, none, fun _ => none, none, fun _ => none, fun _ => 0⟩

/-- An Initial packet and a short header packet that fills the datagram up to 100 bytes. -/
theorem initialDatagram_shape_threeBytes :
    ∃ p, (threeBytesClient.packCoalescedPacket false 200).2 = .ok (some p) ∧
      p.buffer.length = 100 ∧ threeBytesClient.Datagram 200 p := by
  have hrun : ∃ p, (threeBytesClient.packCoalescedPacket false 200).2 = .ok (some p) ∧
      p.buffer.length = 100 ∧
      ∃ q ∈ p.longHdrPackets, q.header.type = .initial ∧ q.frames ≠ [] :=
    ⟨_, rfl, rfl, _, mem_cons_self, rfl, nofun⟩
  obtain ⟨p, hp, hlen, hinitial⟩ := hrun
  exact ⟨p, hp, hlen, initialDatagram_shape _ 200 p (by decide) (.inl hp) hinitial⟩

end UPacketPacker

end UQuic
