/-
# `UQuic.PacketSize` — packets are as large as they were meant to be

The packer works out the size of a packet before it is written, and the next packet
gets what is left of the budget.  Two things have to hold for that to be right:

    Payload.Consistent     the length of a payload is that of the frames in it, so
                           that `appendPacketPayload` does not find a difference
    ..._meets              a payload that was collected for a budget keeps to it

The budget of a crypto packet is kept below 16384 bytes only.  From there on the
length field of a CRYPTO frame takes four bytes, and `MaxDataLen` makes room for two.

All of this is stated forwards.  Either the call returns and the result has the
property, or the program panics.
-/
import UQuic.PacketPacker
import UQuic.FrameLayout

namespace UQuic

open List Except Option
open Wire (AckFrame CryptoFrame StreamFrame ExtendedHeader ConnectionID PacketNumberLen Frame Reads)

theorem orTooLarge_meets {α : Type} (o : Option α) :
    (orTooLarge o).Meets (fun a => o = some a) PackFailure.Panics := by
  cases o with
  | none => exact trivial
  | some a => exact rfl

/-! ## Payloads -/

def framesTotal (fs : List OutgoingFrame) : Nat := (fs.map fun f => f.bytes.length).sum

@[simp] theorem framesTotal_nil : framesTotal [] = 0 := rfl

@[simp] theorem framesTotal_cons (f : OutgoingFrame) (fs : List OutgoingFrame) :
    framesTotal (f :: fs) = f.bytes.length + framesTotal fs := rfl

@[simp] theorem framesTotal_append (fs gs : List OutgoingFrame) :
    framesTotal (fs ++ gs) = framesTotal fs + framesTotal gs := by
  rw [framesTotal, map_append, sum_append]
  rfl

theorem framesTotal_other (bs : List (List UInt8)) :
    framesTotal (bs.map .other) = Framer.total bs := by
  rw [framesTotal, List.map_map]
  rfl

theorem length_flatMap_bytes (fs : List OutgoingFrame) :
    (fs.flatMap OutgoingFrame.bytes).length = framesTotal fs := by
  rw [length_flatMap]
  rfl

/-- A payload of the length that it says, with frames that can be written. -/
structure Payload.Consistent (pl : Payload) : Prop where
  ack : ∀ ack, pl.ack = some ack → ack.Sendable
  streamFrames : ∀ f ∈ pl.streamFrames, f.Writable
  length_eq : ∃ n, ackLength pl.ack = .ok n ∧
    pl.length = n + framesTotal pl.frames + Framer.streamTotal pl.streamFrames

theorem Payload.consistent_empty : Payload.empty.Consistent :=
  ⟨nofun, nofun, 0, rfl, rfl⟩

namespace PacketPacker

variable {ack : Option AckFrame}

/-- An ACK frame takes its length, and has no CRYPTO frame in it. -/
theorem appendAck_meets (raw : List UInt8) (h : ∀ a, ack = some a → a.Sendable) :
    (appendAck raw ack).Meets
      (fun b => ∃ bytes fs, b = raw ++ bytes ∧ ackLength ack = .ok bytes.length ∧ Reads fs bytes ∧
        fs.filterMap Frame.crypto? = []) PackFailure.Panics := by
  cases ack with
  | none => exact ⟨[], [], (append_nil raw).symm, rfl, .nil, rfl⟩
  | some ack =>
    obtain ⟨g, bytes, happ, hlen, hreads⟩ := Reads.ack (h ack rfl)
    rw [appendAck, happ]
    exact ⟨bytes, [.ack g], rfl, by rw [ackLength, hlen]; rfl, hreads, rfl⟩

theorem appendFrames_meets (fs : List OutgoingFrame) (raw : List UInt8) :
    (fs.foldlM (fun raw f => orTooLarge (f.append raw)) raw).Meets
      (fun b => b = raw ++ fs.flatMap OutgoingFrame.bytes) PackFailure.Panics := by
  have hloop := Meets.foldlM (E := PackFailure.Panics) (l := fs) (b := raw)
    (f := fun raw f => orTooLarge (f.append raw))
    (I := fun rest b => b ++ rest.flatMap OutgoingFrame.bytes =
      raw ++ fs.flatMap OutgoingFrame.bytes) ?_ rfl
  · refine hloop.mono fun b hb => ?_
    rwa [flatMap_nil, append_nil] at hb
  · intro f rest b hb
    refine (orTooLarge_meets _).mono fun c hc => ?_
    rw [(OutgoingFrame.append_eq_some hc).1, append_assoc, ← hb, flatMap_cons]

/-- A loop that writes one frame after the other. -/
theorem foldlM_bytes {α : Type} {f : List UInt8 → α → Except PackFailure (List UInt8)}
    {bytes : α → List UInt8} : ∀ (l : List α) (raw : List UInt8),
    (∀ a ∈ l, ∀ raw, f raw a = .ok (raw ++ bytes a)) →
      l.foldlM f raw = .ok (raw ++ l.flatMap bytes)
  | [], raw, _ => by
    rw [flatMap_nil, append_nil]
    rfl
  | a :: l, raw, h => by
    rw [foldlM_cons, h a mem_cons_self, flatMap_cons, ← append_assoc]
    exact foldlM_bytes l _ fun b hb => h b (mem_cons_of_mem a hb)

theorem appendStreamFrames_eq (fs : List StreamFrame) (raw : List UInt8)
    (h : ∀ f ∈ fs, f.Writable) :
    fs.foldlM appendStreamFrame raw = .ok (raw ++ fs.flatMap StreamFrame.bytes) :=
  foldlM_bytes fs raw fun f hf raw => by rw [appendStreamFrame, StreamFrame.append_eq (h f hf)]

theorem length_streamBytes (fs : List StreamFrame) :
    (fs.flatMap StreamFrame.bytes).length = Framer.streamTotal fs := by
  rw [length_flatMap, Framer.streamTotal]
  exact congrArg List.sum (map_congr_left fun f _ => f.length_bytes)

variable (p : PacketPacker) {pl : Payload}

/-- What is written of a consistent payload, in the order it is written. -/
theorem length_written (h : pl.Consistent) {ack : List UInt8}
    (hack : ackLength pl.ack = .ok ack.length) {frames : List OutgoingFrame}
    (hperm : frames.Perm pl.frames) (paddingLen : Nat) :
    (ack ++ List.replicate paddingLen (0x0 : UInt8) ++ frames.flatMap OutgoingFrame.bytes ++
      pl.streamFrames.flatMap StreamFrame.bytes).length = pl.length + paddingLen := by
  obtain ⟨n, hn, hlen⟩ := h.length_eq
  cases hack.symm.trans hn
  have hframes : framesTotal frames = framesTotal pl.frames := (hperm.map _).sum_nat
  simp only [length_append, length_replicate, length_flatMap_bytes, hframes,
    length_streamBytes, hlen]
  omega

/-- A consistent payload is written with its length: the ACK, the padding, then the frames. -/
theorem appendPacketPayload_meets (h : pl.Consistent) (paddingLen : Nat) :
    (p.appendPacketPayload pl paddingLen).Meets
      (fun raw => raw.length = pl.length + paddingLen ∧ ∃ bytes fs gs : List UInt8, ∃ acks,
        raw = bytes ++ List.replicate paddingLen 0x0 ++ fs ++ gs ∧ Reads acks bytes ∧
        acks.filterMap Frame.crypto? = [] ∧ (pl.frames = [] → fs = []) ∧
        (pl.streamFrames = [] → gs = [])) PackFailure.Panics := by
  refine (appendAck_meets [] h.ack).bind ?_
  rintro bytes ⟨_, acks, rfl, hack, hreads, hcrypto⟩
  refine (appendFrames_meets _ _).bind ?_
  rintro _ rfl
  rw [appendStreamFrames_eq _ _ h.streamFrames]
  have hperm := QUICRandomFrames.shuffle_perm p.swap (pl.frames.length - 1) pl.frames
  have hraw := length_written h hack hperm paddingLen
  simp only [Except.bind]
  rw [if_neg (by rw [hraw]; omega)]
  refine ⟨hraw, bytes, _, _, acks, rfl, hreads, hcrypto, ?_, ?_⟩
  · intro hnil
    rw [hnil]
    rfl
  · intro hnil
    rw [hnil]
    rfl

/-- A consistent payload whose frames can all be written is written. -/
theorem appendPacketPayload_eq (h : pl.Consistent)
    {ack : List UInt8} (happ : appendAck [] pl.ack = .ok ack)
    (hlen : ackLength pl.ack = .ok ack.length)
    (hframes : ∀ f ∈ pl.frames, ∀ raw, f.append raw = some (raw ++ f.bytes)) (paddingLen : Nat) :
    ∃ frames : List OutgoingFrame, frames.Perm pl.frames ∧ p.appendPacketPayload pl paddingLen =
      .ok (ack ++ List.replicate paddingLen 0x0 ++ frames.flatMap OutgoingFrame.bytes ++
        pl.streamFrames.flatMap StreamFrame.bytes) := by
  have hperm := QUICRandomFrames.shuffle_perm p.swap (pl.frames.length - 1) pl.frames
  refine ⟨_, hperm, ?_⟩
  have hraw := length_written h hlen hperm paddingLen
  simp only [appendPacketPayload, happ, Except.bind]
  rw [foldlM_bytes _ _ fun f hf raw => by rw [hframes f (hperm.mem_iff.mp hf)]; rfl]
  simp only [appendStreamFrames_eq _ _ h.streamFrames]
  rw [if_neg (by rw [hraw]; omega)]

/-! ## Sealed packets -/

variable {pnBytes : List UInt8} {pnLen : PacketNumberLen}

/-- Only the first byte and the packet number are masked. -/
theorem encryptPacket_bytes (first : UInt8) (clear : List UInt8)
    (hpn : pnBytes.length = pnLen.toNat) (payload : List UInt8)
    (s : Sealer) (pn : Nat) (low : UInt8) :
    let body := s.sealPayload pn payload (first :: (clear ++ pnBytes))
    let sample := ((pnBytes ++ body).drop 4).take 16
    encryptPacket (first :: (clear ++ pnBytes)) payload s pn pnLen low =
      (first ^^^ (s.mask sample 0 &&& low)) ::
        (clear ++ (pnBytes.mapIdx (fun i b => b ^^^ s.mask sample (i + 1)) ++ body)) := by
  have hlen : (clear ++ pnBytes).length - pnLen.toNat = clear.length := by
    rw [length_append, hpn, Nat.add_sub_cancel]
  simp only [encryptPacket, cons_append, encryptHeader, hlen, take_left, drop_left, append_assoc]

variable {hdr : List UInt8}

theorem encryptPacket_eq {clear : List UInt8} {first : UInt8}
    (hhdr : hdr = first :: clear ++ pnBytes)
    (hpn : pnBytes.length = pnLen.toNat) (payload : List UInt8) (s : Sealer) (pn : Nat)
    (low : UInt8) : ∃ m body, encryptPacket hdr payload s pn pnLen low =
      (first ^^^ (m &&& low)) :: clear ++ body ∧
      body.length = pnLen.toNat + payload.length + sealerOverhead := by
  subst hhdr
  refine ⟨_, _, encryptPacket_bytes first clear hpn payload s pn low, ?_⟩
  simp only [length_append, length_mapIdx, hpn, s.length_sealPayload]
  omega

theorem appendToBuffer_meets (buffer raw : List UInt8) :
    (appendToBuffer buffer raw).Meets (fun b => b = buffer ++ raw) PackFailure.Panics := by
  rw [appendToBuffer]
  split
  · exact trivial
  · exact rfl

/-- The bytes of a long header packet: `ParsePacket` cuts them off whatever comes behind. -/
structure WrittenAs (raw : List UInt8) (packet : LongHeaderPacket) : Prop where
  length_eq : raw.length = packet.length
  parses : ∀ rest, Wire.parsePacket (raw ++ rest) = .ok (packet.header.parsed, raw, rest)

/-- A long header packet that was written behind `buffer`. -/
structure Sealed (buffer : List UInt8) (header : ExtendedHeader) (pl : Payload)
    (plaintext raw : List UInt8) (r : List UInt8 × LongHeaderPacket) : Prop where
  buffer_eq : r.1 = buffer ++ raw
  written : WrittenAs raw r.2
  frames_eq : r.2.frames = pl.frames
  plaintext_eq : r.2.plaintext = plaintext
  type_eq : r.2.header.type = header.type
  size_eq : ∃ hdrLen, header.getLength = some hdrLen ∧
    raw.length = hdrLen + plaintext.length + sealerOverhead

/-- A packet whose length field is right is cut off at its end. -/
theorem parsePacket_encryptPacket {h : ExtendedHeader} {plaintext : List UInt8}
    (hretry : h.type ≠ .retry) (hhdr : h.append = some hdr)
    (hlen : h.length = h.packetNumberLen.toNat + sealerOverhead + plaintext.length) (s : Sealer) :
    let raw := encryptPacket hdr plaintext s h.packetNumber h.packetNumberLen 0xf
    raw.length = hdr.length + plaintext.length + sealerOverhead ∧
      ∀ rest, Wire.parsePacket (raw ++ rest) = .ok (h.parsed, raw, rest) := by
  intro raw
  obtain ⟨-, -, hbytes⟩ := Wire.append_eq_some h hretry hhdr
  have hpn := Wire.length_packetNumberBytes h.packetNumber h.packetNumberLen
  obtain ⟨m, body, hraw, hbody⟩ := encryptPacket_eq hbytes hpn plaintext s h.packetNumber 0xf
  have hraw : raw = (h.firstByte ^^^ (m &&& 0xf)) :: h.clearBytes ++ body := hraw
  rw [hraw]
  refine ⟨?_, fun rest => ?_⟩
  · simp only [hbytes, length_append, length_cons, hbody, hpn]
    omega
  · refine Wire.parsePacket_append hretry hhdr (Wire.masked_xor m) ?_ rest
    rw [hbody, hlen]
    exact Nat.add_right_comm _ _ _

variable {header : ExtendedHeader}

theorem appendSealed_meets (buffer : List UInt8)
    (hretry : header.type ≠ .retry) (pl : Payload) (plaintext : List UInt8) (s : Sealer) :
    (appendSealed buffer header pl plaintext s).Meets
      (fun r => ∃ raw, Sealed buffer header pl plaintext raw r) PackFailure.Panics := by
  refine (orTooLarge_meets _).bind fun hdr hhdr => ?_
  refine (appendToBuffer_meets _ _).map ?_
  rintro _ rfl
  let h : ExtendedHeader := { header with
    length := header.packetNumberLen.toNat + sealerOverhead + plaintext.length }
  obtain ⟨hlen, hparse⟩ := parsePacket_encryptPacket (h := h) hretry hhdr rfl s
  exact ⟨_, rfl, ⟨rfl, hparse⟩, rfl, rfl, rfl, hdr.length, Wire.length_append h hretry hhdr, hlen⟩

/-- The packet takes what `longHeaderPacketLength` says, and the padding. -/
theorem appendLongHeaderPacket_meets (buffer : List UInt8)
    (hretry : header.type ≠ .retry) (h : pl.Consistent) (padding : Nat) (s : Sealer) :
    (p.appendLongHeaderPacket buffer header pl padding s).Meets
      (fun r => ∃ plaintext raw, Sealed buffer header pl plaintext raw r ∧
        plaintext.length = pl.length + (tinyPadding header.packetNumberLen pl.length + padding) ∧
        (pl.frames = [] → pl.streamFrames = [] → ∃ fs, Reads fs plaintext ∧
          fs.filterMap Frame.crypto? = [])) PackFailure.Panics := by
  refine (appendPacketPayload_meets p h _).bind ?_
  rintro plaintext ⟨hlen, bytes, fs, gs, acks, hraw, hreads, hcrypto, hfs, hgs⟩
  refine (appendSealed_meets buffer hretry pl plaintext s).mono ?_
  rintro r ⟨raw, hsealed⟩
  refine ⟨plaintext, raw, hsealed, hlen, fun hframes hstream => ?_⟩
  rw [hfs hframes, hgs hstream, append_nil, append_nil] at hraw
  rw [hraw]
  refine ⟨_, hreads.append (QUICRandomFrames.reads_replicate _), ?_⟩
  rw [filterMap_append, hcrypto, filterMap_replicate_of_none rfl]
  rfl

theorem highBit_xor (x m : UInt8) : (x ^^^ (m &&& 0x1f)) &&& 0x80 = x &&& 0x80 := by
  apply UInt8.toNat_inj.mp
  rw [UInt8.toNat_and, UInt8.toNat_xor, UInt8.toNat_and, UInt8.toNat_and,
    Nat.and_xor_distrib_right, Nat.and_assoc,
    show UInt8.toNat 0x1f &&& UInt8.toNat 0x80 = 0 from rfl, Nat.and_zero, Nat.xor_zero]

/-- Header protection leaves the highest bit of a short header alone. -/
theorem not_isLongHeaderPacket (pnLen : PacketNumberLen) (kp : Bool) (m : UInt8) :
    let typeByte := (0x40 : UInt8) ||| .ofNat (pnLen.toNat - 1)
    Wire.isLongHeaderPacket ((if kp then typeByte ||| 0x4 else typeByte) ^^^ (m &&& 0x1f)) =
      false := by
  refine decide_eq_false (not_not.mpr ?_)
  rw [highBit_xor]
  cases pnLen <;> cases kp <;> rfl

/-- `ParsePacket` does not take a short header packet. -/
theorem parsePacket_shortHeader (connID : ConnectionID) (pn : Nat) (pnLen : PacketNumberLen)
    (keyPhaseOne : Bool) (plaintext : List UInt8) (s : Sealer) :
    Wire.parsePacket (encryptPacket (Wire.shortHeaderBytes connID pn pnLen keyPhaseOne) plaintext s
      pn pnLen 0x1f) = .error .notLongHeader := by
  have hpn := Wire.length_packetNumberBytes pn pnLen
  have hbytes : Wire.shortHeaderBytes connID pn pnLen keyPhaseOne = _ := rfl
  obtain ⟨m, body, hraw, -⟩ := encryptPacket_eq hbytes hpn plaintext s pn 0x1f
  rw [hraw, cons_append, Wire.parsePacket, if_neg]
  rw [not_isLongHeaderPacket]
  exact Bool.false_ne_true

/-- A short header packet that was written behind `buffer`. -/
structure SealedShort (p : PacketPacker) (buffer : List UInt8) (s : Sealer) (keyPhaseOne : Bool)
    (plaintext raw : List UInt8) (r : List UInt8 × ShortHeaderPacket) : Prop where
  buffer_eq : r.1 = buffer ++ raw
  raw_eq : raw = encryptPacket (Wire.shortHeaderBytes p.destConnID (p.pnManager .oneRTT).1
    (p.pnManager .oneRTT).2 keyPhaseOne) plaintext s (p.pnManager .oneRTT).1
    (p.pnManager .oneRTT).2 0x1f
  length_eq : r.2.length = raw.length
  size_eq : raw.length = Wire.shortHeaderLen p.destConnID (p.pnManager .oneRTT).2 +
    plaintext.length + sealerOverhead
  notLong : Wire.parsePacket raw = .error .notLongHeader

/-- The packet takes what `shortHeaderPacketLength` says, and the padding. -/
theorem appendShortHeaderPacket_meets (buffer : List UInt8)
    (h : pl.Consistent) {padding : Nat} {maxPacketSize : Int}
    (hmax : (shortHeaderPacketLength p.destConnID (p.pnManager .oneRTT).2 pl + padding +
      sealerOverhead : Nat) ≤ maxPacketSize) (s : Sealer) (keyPhaseOne : Bool) :
    (p.appendShortHeaderPacket buffer pl padding maxPacketSize s keyPhaseOne).Meets
      (fun r => ∃ plaintext raw, SealedShort p buffer s keyPhaseOne plaintext raw r ∧
        plaintext.length = pl.length + (tinyPadding (p.pnManager .oneRTT).2 pl.length + padding))
      PackFailure.Panics := by
  simp only [appendShortHeaderPacket]
  refine (appendPacketPayload_meets p h _).bind ?_
  rintro plaintext ⟨hlen, -⟩
  have hlen : plaintext.length =
      pl.length + (tinyPadding (p.pnManager .oneRTT).2 pl.length + padding) := hlen
  have hhdr := Wire.length_shortHeaderBytes p.destConnID (p.pnManager .oneRTT).1
    (p.pnManager .oneRTT).2 keyPhaseOne
  have hsize : ¬ maxPacketSize < (((Wire.shortHeaderBytes p.destConnID (p.pnManager .oneRTT).1
      (p.pnManager .oneRTT).2 keyPhaseOne).length + plaintext.length + sealerOverhead : Nat) :
        Int) := by
    rw [hhdr, hlen]
    rw [shortHeaderPacketLength] at hmax
    omega
  rw [if_neg hsize]
  refine (appendToBuffer_meets _ _).map ?_
  rintro _ rfl
  have hpn := Wire.length_packetNumberBytes (p.pnManager .oneRTT).1 (p.pnManager .oneRTT).2
  have hbytes : Wire.shortHeaderBytes p.destConnID (p.pnManager .oneRTT).1
      (p.pnManager .oneRTT).2 keyPhaseOne = _ := rfl
  obtain ⟨m, body, hraw, hbody⟩ := encryptPacket_eq hbytes hpn plaintext s
    (p.pnManager .oneRTT).1 0x1f
  refine ⟨plaintext, _, ⟨rfl, rfl, rfl, ?_, ?_⟩, hlen⟩
  · rw [hraw]
    simp only [length_append, length_cons, hbody, Wire.shortHeaderLen]
    omega
  · exact parsePacket_shortHeader _ _ _ _ _ _

/-! ## Crypto packets keep to their budget -/

variable {f g : CryptoFrame} {maxSize : Int}

/-- What `MaxDataLen` says fits, if the offset does at all. -/
theorem maxDataLen_fits {n : Int} (h : f.maxDataLen maxSize = some n)
    (hg : g.offset = f.offset) (hlen : (g.data.length : Int) ≤ n)
    (hroom : 10 ≤ maxSize ∨ n ≠ 0) (hmax : maxSize < 16384) : (g.bytes.length : Int) ≤ maxSize := by
  have hn := CryptoFrame.maxDataLen_eq_some h
  have hsize := Wire.AckFrame.size_le f.offset
  have hheader : g.headerLen = f.headerLen := by
    rw [CryptoFrame.headerLen, hg, CryptoFrame.headerLen]
  rw [CryptoFrame.length_bytes_eq, hheader]
  rcases eq_or_ne n 0 with h0 | hne
  · have hnil : g.data.length = 0 := by omega
    have hlen : f.headerLen = 1 + QuicVarint.size f.offset + 1 := rfl
    have hexcess : QuicVarint.excess true 0 = 0 := rfl
    rw [hnil, hexcess]
    omega
  · rw [hn] at hlen hne
    have hle : QuicVarint.room f.headerLen true maxSize ≤ 16383 :=
      QuicVarint.room_le (Nat.succ_pos _) hmax.le
    exact QuicVarint.fits_of_le_room hlen (by omega) (.inr hne)

theorem maybeSplitOffFrame_le {r : CryptoFrame.Split}
    (h : f.maybeSplitOffFrame maxSize = some r) (hmax : maxSize < 16384)
    (hg : (r = .fits ∧ g = f) ∨ ∃ left, r = .split g left) : (g.bytes.length : Int) ≤ maxSize := by
  obtain ⟨l, hl, h⟩ := bind_eq_some_iff.mp h
  obtain ⟨-, rfl⟩ := (CryptoFrame.length_eq_some_iff l).mp hl
  split_ifs at h with hfits
  · cases h
    rcases hg with ⟨-, rfl⟩ | ⟨left, hg⟩
    · exact hfits
    · cases hg
  · obtain ⟨n, hn, h⟩ := bind_eq_some_iff.mp h
    have hpos := maxDataLen_nonneg hn
    split at h
    · cases h
      rcases hg with ⟨hg, -⟩ | ⟨left, hg⟩ <;> cases hg
    · rename_i hne
      split_ifs at h
      cases h
      rcases hg with ⟨hg, -⟩ | ⟨left, hg⟩
      · cases hg
      · cases hg
        refine maxDataLen_fits hn rfl ?_ (.inr hne) hmax
        show ((f.data.take n.toNat).length : Int) ≤ n
        rw [length_take]
        omega

theorem getFrame_le {q q' : LevelQueue} {maxLen : Int} {f : OutgoingFrame}
    (h : q.getFrame maxLen = some (some (f, q'))) (hmax : maxLen < 16384) :
    (f.bytes.length : Int) ≤ maxLen := by
  have hother : ∀ {q'}, q.getOther maxLen = some (some (f, q')) →
      (f.bytes.length : Int) ≤ maxLen := by
    intro q' h
    obtain ⟨r, hr, h⟩ := map_eq_some_iff.mp h
    obtain ⟨⟨g, rest⟩, rfl, h⟩ := map_eq_some_iff.mp h
    cases h
    obtain ⟨-, l, hl, hle⟩ := popFrame_eq_some hr
    rw [(OutgoingFrame.length_eq_some hl).1] at hle
    exact hle
  simp only [LevelQueue.getFrame] at h
  split at h
  · exact hother h
  · obtain ⟨r, hr, h⟩ := bind_eq_some_iff.mp h
    cases r with
    | fits =>
      cases h
      exact maybeSplitOffFrame_le hr hmax (.inl ⟨rfl, rfl⟩)
    | tooSmall => exact hother h
    | split new left =>
      cases h
      exact maybeSplitOffFrame_le hr hmax (.inr ⟨left, rfl⟩)

theorem takeFrames_meets : ∀ (n : Nat) (maxPacketSize : Int) (q : LevelQueue),
    (takeFrames n maxPacketSize q).Meets
      (fun r => r.2.1 = framesTotal r.1 ∧
        (0 ≤ maxPacketSize → maxPacketSize < 16384 → (r.2.1 : Int) ≤ maxPacketSize))
      PackFailure.Panics
  | 0, _, _ => ⟨rfl, fun h _ => h⟩
  | n + 1, maxPacketSize, q => by
    refine (orTooLarge_meets _).bind ?_
    intro r hr
    cases r with
    | none => exact ⟨rfl, fun h _ => h⟩
    | some r =>
      obtain ⟨f, q'⟩ := r
      refine (orTooLarge_meets _).bind fun l hl => ?_
      obtain ⟨rfl, -⟩ := OutgoingFrame.length_eq_some hl
      refine (takeFrames_meets n _ q').map ?_
      rintro ⟨fs, length, q''⟩ ⟨hlen, hle⟩
      refine ⟨congrArg (f.bytes.length + ·) hlen, fun h0 hmax => ?_⟩
      have hf := getFrame_le hr hmax
      have hrest : (length : Int) ≤ maxPacketSize - f.bytes.length := hle (by omega) (by omega)
      show ((f.bytes.length + length : Nat) : Int) ≤ maxPacketSize
      omega

theorem cryptoFrames_meets (stream : CryptoStream) (queue : LevelQueue) (maxPacketSize : Int) :
    (cryptoFrames stream queue maxPacketSize).Meets (fun r => r.2.1 = framesTotal r.1 ∧
        (10 ≤ maxPacketSize → maxPacketSize < 16384 → (r.2.1 : Int) ≤ maxPacketSize) ∧
        (r.1 ≠ [] → stream.hasData = true ∨ queue.hasData = true)) PackFailure.Panics := by
  simp only [cryptoFrames]
  split
  · rename_i hq
    refine (takeFrames_meets _ maxPacketSize queue).map ?_
    rintro ⟨fs, length, queue'⟩ ⟨hlen, hle⟩
    exact ⟨hlen, fun h0 hmax => hle (by omega) hmax, fun _ => .inr hq⟩
  · split_ifs with hstream
    · refine (orTooLarge_meets _).bind ?_
      rintro ⟨f, stream'⟩ hpop
      refine (orTooLarge_meets _).map fun l hl => ?_
      obtain ⟨-, rfl⟩ := (CryptoFrame.length_eq_some_iff l).mp hl
      refine ⟨rfl, fun h0 hmax => ?_, fun _ => .inl hstream⟩
      obtain ⟨n, hn, hpop⟩ := map_eq_some_iff.mp hpop
      cases hpop
      have hpos := maxDataLen_nonneg hn
      refine maxDataLen_fits hn rfl ?_ (.inl h0) hmax
      show ((stream.writeBuf.take (min n.toNat stream.writeBuf.length)).length : Int) ≤ n
      rw [length_take]
      omega
    · exact ⟨rfl, fun h0 _ => Int.le_trans (show (0 : Int) ≤ 10 by decide) h0,
        fun hne => absurd rfl hne⟩

/-- What `maybeGetCryptoPacket` collects. -/
structure Collected (p : PacketPacker) (stream : CryptoStream) (queue : LevelQueue)
    (maxPacketSize : Int) (encLevel : EncryptionLevel) (type : Wire.PacketType)
    (onlyAck ackAllowed : Bool) (c : CryptoPacket) : Prop where
  consistent : c.payload.Consistent
  streamFrames : c.payload.streamFrames = []
  hdr : ∀ hdr, c.hdr = some hdr → hdr = p.getLongHeader encLevel type
  empty : c.hdr = none → c.payload = .empty
  onlyAck_frames : onlyAck = true → c.payload.frames = []
  hasData : c.payload.frames ≠ [] → stream.hasData = true ∨ queue.hasData = true
  /-- Without an ACK frame, a payload that has some room to begin with keeps to its budget. -/
  length_le : onlyAck = false → ackAllowed = false → ∀ hdr hdrLen, c.hdr = some hdr →
    hdr.getLength = some hdrLen → 10 ≤ maxPacketSize - hdrLen → maxPacketSize < 16384 →
    (hdrLen + c.payload.length : Int) ≤ maxPacketSize

theorem ackLength_meets (ack : Option AckFrame) :
    (ackLength ack).Meets (fun n => ackLength ack = .ok n) PackFailure.Panics := by
  cases ack with
  | none => exact rfl
  | some ack =>
    refine (orTooLarge_meets _).mono fun n hn => ?_
    rw [ackLength, hn]
    rfl

theorem maybeGetCryptoPacket_meets (stream : CryptoStream) (queue : LevelQueue)
    (maxPacketSize : Int) (encLevel : EncryptionLevel) (type : Wire.PacketType)
    (onlyAck ackAllowed : Bool) :
    (p.maybeGetCryptoPacket stream queue maxPacketSize encLevel type onlyAck ackAllowed).Meets
      (Collected p stream queue maxPacketSize encLevel type onlyAck ackAllowed)
      PackFailure.Panics := by
  simp only [maybeGetCryptoPacket]
  have hempty : Collected p stream queue maxPacketSize encLevel type onlyAck ackAllowed
      ⟨none, .empty, stream, queue⟩ :=
    ⟨Payload.consistent_empty, rfl, nofun, fun _ => rfl, fun _ => rfl, fun h => absurd rfl h,
      fun _ _ _ _ h => nomatch h⟩
  split
  · rename_i honly
    split
    · exact hempty
    · rename_i ack hack
      refine (orTooLarge_meets _).map fun l hl => ?_
      refine ⟨⟨?_, nofun, l, ?_, rfl⟩, rfl, fun hdr h => (Option.some.inj h).symm, nofun,
        fun _ => rfl, fun h => absurd rfl h, ?_⟩
      · intro a ha
        cases ha
        exact p.acks_sendable _ _ _ hack
      · show orTooLarge ack.length = _
        rw [hl]
        rfl
      · intro hfalse
        rw [honly] at hfalse
        cases hfalse
  · rename_i honly
    generalize hack : (if ackAllowed then
      p.acks encLevel (!queue.hasData && !stream.hasData) else none) = ack
    have hsendable : ∀ a, ack = some a → a.Sendable := by
      intro a ha
      rw [← hack] at ha
      split_ifs at ha
      exact p.acks_sendable _ _ _ ha
    split
    · exact hempty
    · refine (ackLength_meets _).bind fun ackLen hackLen => ?_
      refine (orTooLarge_meets _).bind fun hdrLen hhdrLen => ?_
      refine (cryptoFrames_meets _ _ _).map ?_
      rintro ⟨fs, length, stream', queue'⟩ ⟨hlength, hle, hdata⟩
      have hlength : length = framesTotal fs := hlength
      refine ⟨⟨hsendable, nofun, ackLen, hackLen, ?_⟩, rfl,
        fun hdr h => (Option.some.inj h).symm, nofun, fun h => absurd h honly, hdata, ?_⟩
      · show ackLen + length = ackLen + framesTotal fs + 0
        rw [hlength]
        rfl
      · intro _ hnot hdr hdrLen' hhdr hlen hroom hmax
        cases hhdr
        cases hlen.symm.trans hhdrLen
        have hz : ackLen = 0 := by
          rw [hnot, if_neg Bool.false_ne_true] at hack
          rw [← hack] at hackLen
          cases hackLen
          rfl
        have hrest : (length : Int) ≤ maxPacketSize - ackLen - hdrLen :=
          hle (by omega) (by omega)
        show (hdrLen + ((ackLen + length : Nat) : Int) : Int) ≤ maxPacketSize
        omega

/-! ## Application data keeps to its budget -/

theorem framesTotal_datagram (maxLen : Int) (hasAck : Bool) (queue : QueuedDatagrams) :
    (framesTotal (datagram maxLen hasAck queue).1 : Int) ≤ max 0 maxLen := by
  rw [datagram.eq_def]
  split
  · split_ifs with hle
    · exact hle.trans (Int.le_max_right 0 maxLen)
    · exact Int.le_max_left 0 maxLen
    · exact Int.le_max_left 0 maxLen
  · exact Int.le_max_left 0 maxLen

theorem retransmissions_meets : ∀ (fs : List OutgoingFrame) (remainingLen : Int),
    (retransmissions remainingLen fs).Meets
      (fun r => r.2 = framesTotal r.1 ∧ (r.2 : Int) ≤ max 0 remainingLen) PackFailure.Panics
  | [], remainingLen => ⟨rfl, Int.le_max_left 0 remainingLen⟩
  | f :: rest, remainingLen => by
    rw [retransmissions]
    split
    · exact ⟨rfl, Int.le_max_left 0 remainingLen⟩
    · refine (orTooLarge_meets _).bind fun l hl => ?_
      obtain ⟨rfl, -⟩ := OutgoingFrame.length_eq_some hl
      split
      · exact ⟨rfl, Int.le_max_left 0 remainingLen⟩
      · refine (retransmissions_meets rest _).map ?_
        rintro ⟨fs, length⟩ ⟨hlen, hle⟩
        refine ⟨congrArg (f.bytes.length + ·) hlen, ?_⟩
        have hrest : (length : Int) ≤ max 0 (remainingLen - f.bytes.length) := hle
        show ((f.bytes.length + length : Nat) : Int) ≤ max 0 remainingLen
        omega

theorem mem_retransmissions {fs : List OutgoingFrame} {remainingLen : Int}
    {r : List OutgoingFrame × Nat} (h : retransmissions remainingLen fs = .ok r) :
    ∀ o ∈ r.1, o ∈ fs := by
  induction fs generalizing remainingLen r with
  | nil =>
    rw [retransmissions] at h
    cases h
    exact fun o ho => ho
  | cons f fs ih =>
    intro o ho
    rw [retransmissions] at h
    split at h
    · cases h
      cases ho
    · obtain ⟨l, -, h⟩ := bind_eq_ok_iff.mp h
      split at h
      · cases h
        cases ho
      · obtain ⟨r', hr', rfl⟩ := map_eq_ok_iff.mp h
        rcases mem_cons.mp ho with rfl | ho
        · exact mem_cons_self
        · exact mem_cons_of_mem f (ih hr' o ho)

theorem framerFrames_meets (maxLen : Int) :
    (p.framerFrames maxLen).Meets (Framer.Added.Fits (max 0 maxLen)) PackFailure.Panics := by
  rw [framerFrames]
  split
  · exact (orTooLarge_meets _).mono fun a ha => Framer.append_fits ha
  · exact ⟨nofun, ⟨[], rfl, rfl⟩, Int.le_max_left 0 maxLen⟩

/-- Frames of application data: only the ACK may take more than there is room for. -/
theorem appDataFrames_meets {ackLen : Nat} {dgram : List OutgoingFrame} {maxFrameSize : Int}
    (hack : ackLength ack = .ok ackLen) (hsendable : ∀ a, ack = some a → a.Sendable)
    (hdgram : (framesTotal dgram : Int) ≤ max 0 (maxFrameSize - ackLen)) :
    (p.appDataFrames ack ackLen dgram maxFrameSize).Meets
      (fun pl => pl.ack = ack ∧ pl.Consistent ∧ (pl.length : Int) ≤ max maxFrameSize ackLen)
      PackFailure.Panics := by
  simp only [appDataFrames]
  split
  · refine ⟨rfl, ⟨hsendable, nofun, ackLen, hack, rfl⟩, ?_⟩
    show ((ackLen + framesTotal dgram : Nat) : Int) ≤ max maxFrameSize ackLen
    omega
  · refine (retransmissions_meets _ _).bind ?_
    rintro ⟨rs, n⟩ ⟨hn, hle⟩
    have hn : n = framesTotal rs := hn
    have hle : (n : Int) ≤ max 0 (maxFrameSize - (ackLen + framesTotal dgram : Nat)) := hle
    refine (framerFrames_meets p _).map fun added hfits => ?_
    obtain ⟨bs, hframes, hlen⟩ := hfits.other
    have hadded : (added.length : Int) ≤
        max 0 (maxFrameSize - (ackLen + framesTotal dgram : Nat) - n) := hfits.length_le
    refine ⟨rfl, ⟨hsendable, hfits.writable, ackLen, hack, ?_⟩, ?_⟩
    · simp only [framesTotal_append]
      rw [hframes, framesTotal_other, hlen, hn]
      show ackLen + framesTotal dgram + _ + _ = _
      omega
    · show ((ackLen + framesTotal dgram + n + added.length : Nat) : Int) ≤ max maxFrameSize ackLen
      omega

theorem composeNextPacket_meets (maxFrameSize : Int) (onlyAck ackAllowed : Bool) :
    (p.composeNextPacket maxFrameSize onlyAck ackAllowed).Meets
      (fun r => r.1.Consistent ∧ ∃ ackLen, ackLength r.1.ack = .ok ackLen ∧
        (r.1.length : Int) ≤ max maxFrameSize ackLen ∧
        (onlyAck = false → ackAllowed = false → r.1.ack = none)) PackFailure.Panics := by
  rw [composeNextPacket]
  split
  · rename_i honly
    refine (ackLength_meets _).map fun l hl => ?_
    refine ⟨⟨fun a ha => p.acks_sendable _ _ _ ha, nofun, l, hl, rfl⟩, l, hl,
      Int.le_max_right _ _, fun hfalse => ?_⟩
    rw [honly] at hfalse
    cases hfalse
  · have hsendable : ∀ a, p.composeAck ackAllowed = some a → a.Sendable := by
      intro a ha
      rw [composeAck] at ha
      split_ifs at ha
      exact p.acks_sendable _ _ _ ha
    refine (ackLength_meets _).bind fun ackLen hackLen => ?_
    refine (appDataFrames_meets p hackLen hsendable (framesTotal_datagram _ _ _)).map ?_
    rintro pl ⟨hpl, hconsistent, hle⟩
    refine ⟨hconsistent, ackLen, hpl ▸ hackLen, hle, fun _ hnot => ?_⟩
    rw [hpl, hnot]
    rfl

/-- Application data without an ACK. -/
theorem maybeGetAppDataPacket_meets {maxPayloadSize : Int} (h : 0 ≤ maxPayloadSize) :
    (p.maybeGetAppDataPacket maxPayloadSize false false).Meets
      (fun r => r.1.Consistent ∧ (r.1.length : Int) ≤ maxPayloadSize) PackFailure.Panics := by
  rw [maybeGetAppDataPacket]
  refine (composeNextPacket_meets p maxPayloadSize false false).map ?_
  rintro ⟨pl, queue⟩ ⟨hconsistent, ackLen, hackLen, hle, hno⟩
  have hack : pl.ack = none := hno rfl rfl
  have hackLen : ackLength pl.ack = .ok ackLen := hackLen
  have hle : (pl.length : Int) ≤ max maxPayloadSize ackLen := hle
  have hle : (pl.length : Int) ≤ maxPayloadSize := by
    rw [hack] at hackLen
    cases hackLen
    omega
  show (p.withPing pl).Consistent ∧ ((p.withPing pl).length : Int) ≤ maxPayloadSize
  rw [withPing, hack]
  split
  · exact ⟨Payload.consistent_empty, h⟩
  · exact ⟨hconsistent, hle⟩

end PacketPacker

end UQuic
