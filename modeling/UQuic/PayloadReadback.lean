/-
# `UQuic.PayloadReadback` — the peer reads what the packer composed

A payload of `composeNextPacket` goes through `appendPacketPayload`, which pads it and
shuffles its control frames, and is read by a `FrameParser`.

    Holds       the frame that an entry of a queue stands for
    Queues      what the queues of the packer hold: frames that can be written, and that
                end by themselves
    Readable    what follows for a payload: only its last STREAM frame may go on to the
                end of the packet

## What is proved

`payload_readsBack`: nothing fails on the way, and the parser gets the ACK, the control
frames in some order, and the STREAM frames in theirs.  An ACK frame loses precision in
its delay.  The payload keeps to its budget, unless the ACK alone is longer than that.
-/
import UQuic.PacketSize
import UQuic.Wire.FrameParser

namespace UQuic

open List Except Option
open Wire (AckFrame CryptoFrame StreamFrame FrameParser)

/-! ## Queued frames -/

/-- The frame that is queued: CRYPTO and PING as they are, any other one by its bytes. -/
inductive OutgoingFrame.Holds : OutgoingFrame → FrameParser.Frame → Prop
  | crypto {f : CryptoFrame} (encodable : f.Encodable) : Holds (.crypto f) (.crypto f)
  | ping : Holds .ping .ping
  | other {f : FrameParser.Frame} {bytes : List UInt8} (inRange : f.InRange) (onWire : f.OnWire)
      (delimited : f.Delimited) (append_eq : f.append [] = .ok bytes) : Holds (.other bytes) f

variable {fs : List OutgoingFrame}

namespace OutgoingFrame

def IsFrame (o : OutgoingFrame) : Prop := ∃ f, o.Holds f

variable {o : OutgoingFrame} {f : FrameParser.Frame} {parser : FrameParser}

theorem Holds.append_eq_some (h : o.Holds f) (raw : List UInt8) :
    o.append raw = some (raw ++ o.bytes) := by
  cases h with
  | crypto encodable => exact (CryptoFrame.append_eq_some_iff _ _).mpr ⟨encodable, rfl⟩
  | ping | other => rfl

/-- The bytes of a frame that is in range. -/
theorem parseAll_bytes (hparser : parser.supportsDatagrams = true) (inRange : f.InRange)
    (onWire : f.OnWire) {rest bytes : List UInt8} (hrest : f.Delimited ∨ rest = [])
    (happ : f.append [] = .ok bytes) : parser.parseAll (bytes ++ rest) .oneRTT =
      (parser.parseAll rest .oneRTT).map (f :: ·) := by
  have hread := FrameParser.Frame.readAs_self parser hparser .oneRTT inRange onWire hrest
  obtain ⟨bytes', happend', -, hparse⟩ := hread.parseAll rfl
  cases happ.symm.trans (happend' [])
  exact hparse

/-- A queued frame is read as the frame that it holds. -/
theorem Holds.parseAll (h : o.Holds f) (hparser : parser.supportsDatagrams = true)
    (rest : List UInt8) : parser.parseAll (o.bytes ++ rest) .oneRTT =
      (parser.parseAll rest .oneRTT).map (f :: ·) := by
  cases h with
  | @crypto f encodable =>
    refine parseAll_bytes hparser (f := .crypto f) encodable trivial (.inl trivial) ?_
    have happ := (CryptoFrame.append_eq_some_iff [] _).mpr ⟨encodable, rfl⟩
    exact congrArg FrameParser.orPanic happ
  | ping =>
    exact parseAll_bytes hparser (f := .ping) trivial trivial (.inl trivial) rfl
  | other inRange onWire delimited append_eq =>
    exact parseAll_bytes hparser inRange onWire (.inl delimited) append_eq

/-- It is as long as the frame says. -/
theorem Holds.length_eq (h : o.Holds f) : f.length = some o.bytes.length := by
  -- a frame that is read back was written with as many bytes as its length
  have hlength : ∀ {f : FrameParser.Frame} {bytes : List UInt8}, f.InRange → f.OnWire →
      f.Delimited → f.append [] = .ok bytes → f.length = some bytes.length := by
    intro f bytes inRange onWire delimited append_eq
    have hreads : f.ReadAs ⟨3, true⟩ .oneRTT f [] :=
      FrameParser.Frame.readAs_self ⟨3, true⟩ rfl .oneRTT inRange onWire (.inl delimited)
    obtain ⟨bytes', happend', hlen, -⟩ := hreads.parseAll rfl
    cases append_eq.symm.trans (happend' [])
    exact hlen
  cases h with
  | @crypto f encodable =>
    have happend := (CryptoFrame.append_eq_some_iff [] _).mpr ⟨encodable, rfl⟩
    exact hlength (f := .crypto f) encodable trivial trivial (congrArg FrameParser.orPanic happend)
  | ping => rfl
  | other inRange onWire delimited append_eq => exact hlength inRange onWire delimited append_eq

theorem exists_forall₂_holds (h : ∀ o ∈ fs, o.IsFrame) : ∃ gs, List.Forall₂ Holds fs gs := by
  induction fs with
  | nil => exact ⟨[], .nil⟩
  | cons o fs ih =>
    obtain ⟨g, hg⟩ := h o mem_cons_self
    obtain ⟨gs, hgs⟩ := ih fun o' ho' => h o' (mem_cons_of_mem o ho')
    exact ⟨g :: gs, .cons hg hgs⟩

theorem map_length_eq {gs : List FrameParser.Frame} (h : List.Forall₂ Holds fs gs) :
    gs.map FrameParser.Frame.length = fs.map fun o => some o.bytes.length := by
  induction h with
  | nil => rfl
  | cons hfirst _ ih => rw [map_cons, map_cons, hfirst.length_eq, ih]

/-- One queued frame after the other. -/
theorem parseAll_frames (hparser : parser.supportsDatagrams = true) (rest : List UInt8)
    {gs : List FrameParser.Frame} (h : List.Forall₂ Holds fs gs) :
    parser.parseAll (fs.flatMap bytes ++ rest) .oneRTT =
      (parser.parseAll rest .oneRTT).map (gs ++ ·) := by
  induction h with
  | nil =>
    rw [flatMap_nil, nil_append]
    cases parser.parseAll rest .oneRTT <;> rfl
  | cons hfirst _ ih =>
    rw [flatMap_cons, append_assoc, hfirst.parseAll hparser, ih]
    cases parser.parseAll rest .oneRTT <;> rfl

end OutgoingFrame

/-- STREAM frames, of which only the last one may be without a length field. -/
theorem parseAll_streamFrames {parser : FrameParser} (hparser : parser.supportsDatagrams = true)
    {fs : List StreamFrame} (hrange : ∀ f ∈ fs, f.InRange)
    (hlen : ∀ f ∈ fs.dropLast, f.dataLenPresent = true) :
    parser.parseAll (fs.flatMap StreamFrame.bytes) .oneRTT = .ok (fs.map .stream) := by
  induction fs with
  | nil => rfl
  | cons f fs ih =>
    have hf : f.InRange := hrange f mem_cons_self
    have hrest : (FrameParser.Frame.stream f).Delimited ∨ fs.flatMap StreamFrame.bytes = [] := by
      cases fs with
      | nil => exact .inr rfl
      | cons g fs => exact .inl (hlen f mem_cons_self)
    have hfs : ∀ g ∈ fs.dropLast, g.dataLenPresent = true := by
      intro g hg
      cases fs with
      | nil => cases hg
      | cons g' fs => exact hlen g (mem_cons_of_mem f hg)
    have happ : (FrameParser.Frame.stream f).append [] = .ok f.bytes :=
      StreamFrame.append_eq hf.toWritable []
    rw [flatMap_cons,
      OutgoingFrame.parseAll_bytes hparser (f := .stream f) hf trivial hrest happ,
      ih (fun g hg => hrange g (mem_cons_of_mem f hg)) hfs]
    rfl

/-! ## What the framer adds -/

/-- The bytes of a frame that is held by them. -/
def IsFrameBytes (b : List UInt8) : Prop := (OutgoingFrame.other b).IsFrame

/-- What the queues of a framer hold.  A stream keeps to the largest offset that flow control
can grant. -/
structure Framer.Queues (fr : Framer) : Prop where
  pathResponses : ∀ b ∈ fr.pathResponses, IsFrameBytes b
  streamControl : ∀ str ∈ fr.streamsWithControlFrames, ∀ c ∈ str, IsFrameBytes c.bytes
  controlFrames : ∀ b ∈ fr.controlFrames, IsFrameBytes b
  streams : ∀ s, some s ∈ fr.streamQueue → ∀ maxBytes,
    (∀ f, (s.popStreamFrame maxBytes).frame = some f → f.offset + f.data.length ≤ maxByteCount) ∧
    ∀ b, (s.popStreamFrame maxBytes).blocked = some b → IsFrameBytes b
  newlyBlocked : ∀ b, fr.newlyBlocked = some b → IsFrameBytes b

namespace Framer

variable {maxLen : Int} {b : List UInt8}

theorem mem_pathResponse {fs : List (List UInt8)} (h : b ∈ pathResponse maxLen fs) : b ∈ fs := by
  cases fs with
  | nil => exact h
  | cons f fs =>
    rw [pathResponse] at h
    split at h
    · rw [mem_singleton.mp h]
      exact mem_cons_self
    · cases h

variable {length : Nat}

theorem mem_streamControl {str : List StreamControlFrame}
    (h : b ∈ (streamControl maxLen length str).1) : ∃ c ∈ str, b = c.bytes := by
  induction str generalizing length with
  | nil => cases h
  | cons f more ih =>
    rw [streamControl] at h
    split at h
    · cases h
    · split at h
      · exact ⟨f, mem_cons_self, mem_singleton.mp h⟩
      · rcases mem_cons.mp h with h | h
        · exact ⟨f, mem_cons_self, h⟩
        · obtain ⟨c, hc, hb⟩ := ih h
          exact ⟨c, mem_cons_of_mem f hc, hb⟩

theorem mem_streamsControl {strs : List (List StreamControlFrame)}
    (h : b ∈ streamsControl maxLen length strs) : ∃ str ∈ strs, ∃ c ∈ str, b = c.bytes := by
  induction strs generalizing length with
  | nil => cases h
  | cons str strs ih =>
    simp only [streamsControl] at h
    split at h
    · exact ⟨str, mem_cons_self, mem_streamControl h⟩
    · rcases mem_append.mp h with h | h
      · exact ⟨str, mem_cons_self, mem_streamControl h⟩
      · obtain ⟨str', hstr, hc⟩ := ih h
        exact ⟨str', mem_cons_of_mem str hstr, hc⟩

theorem mem_otherControl {fs : List (List UInt8)}
    (h : b ∈ otherControl maxLen length fs) : b ∈ fs := by
  induction fs generalizing length with
  | nil => exact h
  | cons f fs ih =>
    rw [otherControl] at h
    split at h
    · cases h
    · rcases mem_cons.mp h with h | h
      · exact h ▸ mem_cons_self
      · exact mem_cons_of_mem f (ih h)

theorem mem_connBlocked {o : Option (List UInt8)} (h : b ∈ connBlocked maxLen o) : o = some b := by
  cases o with
  | none => cases h
  | some c =>
    rw [connBlocked] at h
    split at h
    · rw [mem_singleton.mp h]
    · cases h

variable {fr : Framer}

theorem Queues.appendControlFrames (h : fr.Queues)
    (hb : b ∈ fr.appendControlFrames maxLen) : IsFrameBytes b := by
  simp only [Framer.appendControlFrames] at hb
  rcases mem_append.mp hb with hb | hb
  · rcases mem_append.mp hb with hb | hb
    · exact h.pathResponses b (mem_pathResponse hb)
    · obtain ⟨str, hstr, c, hc, rfl⟩ := mem_streamsControl hb
      exact h.streamControl str hstr c hc
  · exact h.controlFrames b (mem_reverse.mp (mem_otherControl hb))

/-- What the loop over the streams pops. -/
structure Popped.Readable (p : Popped) : Prop where
  frames : ∀ b ∈ p.frames, IsFrameBytes b
  inRange : ∀ f ∈ p.streamFrames, f.InRange
  dataLen : ∀ f ∈ p.streamFrames, f.dataLenPresent = true

theorem Popped.readable_nil : (⟨[], [], maxLen⟩ : Popped).Readable := ⟨nofun, nofun, nofun⟩

theorem popStreams_readable {strs : List (Option SendStream)} {p : Popped}
    (h : ∀ s, some s ∈ strs → ∀ maxBytes,
      (∀ f, (s.popStreamFrame maxBytes).frame = some f → f.offset + f.data.length ≤ maxByteCount) ∧
      ∀ b, (s.popStreamFrame maxBytes).blocked = some b → IsFrameBytes b)
    (hp : popStreams maxLen strs = some p) : p.Readable := by
  induction strs generalizing maxLen p with
  | nil =>
    rw [popStreams] at hp
    cases hp
    exact Popped.readable_nil
  | cons str strs ih =>
    have hstrs := fun s hs => h s (mem_cons_of_mem str hs)
    rw [popStreams.eq_def] at hp
    dsimp only at hp
    split_ifs at hp with hroom
    · cases hp
      exact Popped.readable_nil
    · cases str with
      | none => exact ih hstrs hp
      | some s =>
        obtain ⟨l, -, hp⟩ := bind_eq_some_iff.mp hp
        obtain ⟨hoff, hblocked⟩ := h s mem_cons_self (maxLen + l)
        have hpromise := s.promise (maxLen + l)
        have hframe : ∀ f ∈ (s.popStreamFrame (maxLen + l)).frame.toList,
            f.InRange ∧ f.dataLenPresent = true := by
          intro f hf
          have hf := mem_toList.mp hf
          obtain ⟨hw, hlen, -⟩ := hpromise f (by omega) hf
          exact ⟨⟨hw, hoff f hf⟩, hlen⟩
        split at hp
        · cases hp
          exact ⟨by rintro _ ⟨⟩, fun f hf => (hframe f hf).1, fun f hf => (hframe f hf).2⟩
        · obtain ⟨q, hq, rfl⟩ := map_eq_some_iff.mp hp
          have hrest := ih hstrs hq
          refine ⟨fun b hb => ?_, fun f hf => ?_, fun f hf => ?_⟩
          · rcases mem_append.mp hb with hb | hb
            · exact hblocked b (mem_toList.mp hb)
            · exact hrest.frames b hb
          · rcases mem_append.mp hf with hf | hf
            · exact (hframe f hf).1
            · exact hrest.inRange f hf
          · rcases mem_append.mp hf with hf | hf
            · exact (hframe f hf).2
            · exact hrest.dataLen f hf

/-- Frames that can be read: only the last STREAM frame goes on to the end of the packet. -/
structure StreamsReadable (fs : List StreamFrame) : Prop where
  inRange : ∀ f ∈ fs, f.InRange
  dataLen : ∀ f ∈ fs.dropLast, f.dataLenPresent = true
  last : ∀ f, fs.getLast? = some f → f.dataLenPresent = false

theorem streamsReadable_nil : StreamsReadable [] := ⟨nofun, nofun, nofun⟩

theorem streamsReadable_dropLastDataLen {fs : List StreamFrame} (hrange : ∀ f ∈ fs, f.InRange)
    (hlen : ∀ f ∈ fs, f.dataLenPresent = true) : StreamsReadable (dropLastDataLen fs) := by
  rcases eq_nil_or_concat fs with rfl | ⟨fs, g, rfl⟩
  · exact streamsReadable_nil
  · rw [concat_eq_append] at hrange hlen ⊢
    rw [dropLastDataLen_append]
    have hg := hrange g (mem_append_right _ mem_cons_self)
    refine ⟨fun f hf => ?_, fun f hf => ?_, fun f hf => ?_⟩
    · rcases mem_append.mp hf with hf | hf
      · exact hrange f (mem_append_left _ hf)
      · rw [mem_singleton.mp hf]
        exact ⟨{ hg with }, hg.maxOffset⟩
    · rw [dropLast_concat] at hf
      exact hlen f (mem_append_left _ hf)
    · rw [List.getLast?_concat] at hf
      cases hf
      rfl

theorem append_readable (h : fr.Queues) {a : Added} (ha : fr.append maxLen = some a) :
    (∀ o ∈ a.frames, o.IsFrame) ∧ StreamsReadable a.streamFrames := by
  obtain ⟨p, hp, rfl⟩ := map_eq_some_iff.mp ha
  have hpopped := popStreams_readable h.streams hp
  refine ⟨fun o ho => ?_, streamsReadable_dropLastDataLen hpopped.inRange hpopped.dataLen⟩
  obtain ⟨b, hb, rfl⟩ := mem_map.mp ho
  rcases mem_append.mp hb with hb | hb
  · rcases mem_append.mp hb with hb | hb
    · exact h.appendControlFrames hb
    · exact hpopped.frames b hb
  · exact h.newlyBlocked b (mem_connBlocked hb)

end Framer

/-! ## What the packer composes -/

namespace PacketPacker

/-- What the queues of a packer hold. -/
structure Queues (p : PacketPacker) : Prop where
  framer : p.framer.Queues
  datagrams : ∀ queue, p.datagramQueue = some queue → ∀ b ∈ queue, IsFrameBytes b
  appData : ∀ o ∈ p.retransmissionQueue.appData, o.IsFrame

/-- The frames of the payload can be read. -/
structure Readable (pl : Payload) : Prop where
  frames : ∀ o ∈ pl.frames, o.IsFrame
  streamFrames : Framer.StreamsReadable pl.streamFrames

variable {maxLen : Int}

theorem mem_datagram {queue : QueuedDatagrams} {hasAck : Bool} {o : OutgoingFrame}
    (h : o ∈ (datagram maxLen hasAck queue).1) :
    ∃ q b, queue = some q ∧ b ∈ q ∧ o = .other b := by
  rw [datagram.eq_def] at h
  split at h
  · rename_i f fs
    split_ifs at h
    · exact ⟨f :: fs, f, rfl, mem_cons_self, mem_singleton.mp h⟩
    · cases h
    · cases h
  · cases h

variable {p : PacketPacker}

theorem Queues.framerFrames (h : p.Queues) {a : Framer.Added} (ha : p.framerFrames maxLen = .ok a) :
    (∀ o ∈ a.frames, o.IsFrame) ∧ Framer.StreamsReadable a.streamFrames := by
  rw [PacketPacker.framerFrames] at ha
  split at ha
  · exact Framer.append_readable h.framer (orTooLarge_eq_ok ha)
  · cases ha
    exact ⟨by rintro _ ⟨⟩, Framer.streamsReadable_nil⟩

variable {pl : Payload}

variable {ack : Option AckFrame} {maxFrameSize : Int}

theorem Queues.appDataFrames (h : p.Queues) {ackLen : Nat} {dgram : List OutgoingFrame}
    (hdgram : ∀ o ∈ dgram, o.IsFrame)
    (hpl : p.appDataFrames ack ackLen dgram maxFrameSize = .ok pl) : Readable pl := by
  simp only [PacketPacker.appDataFrames] at hpl
  split at hpl
  · cases hpl
    exact ⟨hdgram, Framer.streamsReadable_nil⟩
  · obtain ⟨r, hr, hpl⟩ := bind_eq_ok_iff.mp hpl
    obtain ⟨a, ha, rfl⟩ := map_eq_ok_iff.mp hpl
    obtain ⟨hframes, hstreams⟩ := h.framerFrames ha
    refine ⟨fun o ho => ?_, hstreams⟩
    rcases mem_append.mp ho with ho | ho
    · rcases mem_append.mp ho with ho | ho
      · exact hdgram o ho
      · exact h.appData o (mem_retransmissions hr o ho)
    · exact hframes o ho

variable {onlyAck ackAllowed : Bool} {queue : QueuedDatagrams}

theorem Queues.composeNextPacket (h : p.Queues)
    (hpl : p.composeNextPacket maxFrameSize onlyAck ackAllowed = .ok (pl, queue)) :
    Readable pl := by
  rw [PacketPacker.composeNextPacket] at hpl
  split at hpl
  · obtain ⟨l, -, hpl⟩ := map_eq_ok_iff.mp hpl
    cases hpl
    exact ⟨fun f hf => absurd hf not_mem_nil, Framer.streamsReadable_nil⟩
  · obtain ⟨l, -, hpl⟩ := bind_eq_ok_iff.mp hpl
    obtain ⟨pl', hpl', hpl⟩ := map_eq_ok_iff.mp hpl
    cases hpl
    refine h.appDataFrames (fun o ho => ?_) hpl'
    obtain ⟨q, b, hq, hb, rfl⟩ := mem_datagram ho
    exact h.datagrams q hq b hb

/-! ## What the parser reads -/

/-- What is on the wire of an ACK frame: the ranges that are encoded, and the delay in units of
8 µs. -/
def ackOnWire (a : AckFrame) : AckFrame :=
  { a with
    ackRanges := a.ackRanges.take (a.numEncodableAckRanges.getD 0)
    delayTime := a.delayTime - a.delayTime % 8000 }

/-- No range is lost if there are as many as the received packet history keeps. -/
theorem ackRanges_ackOnWire {a : AckFrame} (h : a.Sendable)
    (hle : a.ackRanges.length ≤ maxNumAckRanges) : (ackOnWire a).ackRanges = a.ackRanges := by
  show a.ackRanges.take _ = _
  rw [h.numEncodableAckRanges_eq hle, getD_some, take_length]

/-- The entries are as long as the frames they hold.  However it is padded and its frames are
shuffled, the payload is written, and the parser gets the frames that are in it. -/
def ReadsBack (parser : FrameParser) (pl : Payload) : Prop :=
  ∃ control, List.Forall₂ OutgoingFrame.Holds pl.frames control ∧
    control.map FrameParser.Frame.length = pl.frames.map (fun o => some o.bytes.length) ∧
    ∀ (packer : PacketPacker) (paddingLen : Nat), ∃ raw shuffled,
      packer.appendPacketPayload pl paddingLen = .ok raw ∧ raw.length = pl.length + paddingLen ∧
      shuffled.Perm control ∧ parser.parseAll raw .oneRTT =
        .ok (pl.ack.toList.map (fun a => .ack (ackOnWire a)) ++ shuffled ++
          pl.streamFrames.map .stream)

/-- The ACK at the beginning of a payload. -/
theorem appendAck_reads {parser : FrameParser}
    (hexponent : parser.ackDelayExponent = AckFrame.ackDelayExponent)
    (h : ∀ a, ack = some a → a.Sendable) : ∃ bytes,
    appendAck [] ack = .ok bytes ∧ ackLength ack = .ok bytes.length ∧
    ∀ rest, parser.parseAll (bytes ++ rest) .oneRTT =
      (parser.parseAll rest .oneRTT).map (ack.toList.map (fun a => .ack (ackOnWire a)) ++ ·) := by
  cases ack with
  | none =>
    refine ⟨[], rfl, rfl, fun rest => ?_⟩
    rw [nil_append]
    cases parser.parseAll rest .oneRTT <;> rfl
  | some a =>
    have ha := h a rfl
    obtain ⟨k, hnum, hread⟩ := FrameParser.ack_readAs parser ha
    have hwire : a.readAs parser.ackDelayExponent (k + 1) = ackOnWire a := by
      rw [hexponent, AckFrame.readAs_eq ha, ackOnWire, hnum, getD_some]
    rw [hwire] at hread
    obtain ⟨bytes, happ, hlen, -⟩ := (hread []).parseAll rfl
    have hbytes : a.append [] = some bytes := FrameParser.orPanic_eq_ok (happ [])
    refine ⟨bytes, ?_, ?_, fun rest => ?_⟩
    · rw [appendAck, hbytes]
      rfl
    · have hlen : a.length = some bytes.length := hlen
      rw [ackLength, hlen]
      rfl
    · obtain ⟨bytes', happend', -, hparse⟩ := (hread rest).parseAll rfl
      cases (happ []).symm.trans (happend' [])
      exact hparse

/-- A payload that is consistent and readable is read back. -/
theorem readsBack_of_readable {parser : FrameParser} (hparser : parser.supportsDatagrams = true)
    (hexponent : parser.ackDelayExponent = AckFrame.ackDelayExponent)
    (hconsistent : pl.Consistent) (h : Readable pl) : ReadsBack parser pl := by
  obtain ⟨control, hcontrol⟩ := OutgoingFrame.exists_forall₂_holds h.frames
  refine ⟨control, hcontrol, OutgoingFrame.map_length_eq hcontrol, fun packer paddingLen => ?_⟩
  obtain ⟨ack, happ, hlen, hack⟩ := appendAck_reads hexponent hconsistent.ack
  have hwritten : ∀ o ∈ pl.frames, ∀ raw, o.append raw = some (raw ++ o.bytes) := by
    intro o ho raw
    obtain ⟨f, hf⟩ := h.frames o ho
    exact hf.append_eq_some raw
  obtain ⟨frames, hperm, hraw⟩ :=
    appendPacketPayload_eq packer hconsistent happ hlen hwritten paddingLen
  -- the shuffle of the entries is a shuffle of the frames they hold
  obtain ⟨shuffled, hshuffled, hperm'⟩ := perm_comp_forall₂ hperm hcontrol
  refine ⟨_, shuffled, hraw, length_written hconsistent hlen hperm paddingLen, hperm', ?_⟩
  have hstreams := parseAll_streamFrames hparser h.streamFrames.inRange h.streamFrames.dataLen
  rw [append_assoc, append_assoc, hack, FrameParser.parseAll_replicate,
    OutgoingFrame.parseAll_frames hparser _ hshuffled, hstreams]
  simp only [Except.map, append_assoc]

theorem maybeGetAppDataPacket_cases {maxPayloadSize : Int}
    (h : p.maybeGetAppDataPacket maxPayloadSize onlyAck ackAllowed = .ok (pl, queue)) :
    ∃ pl', p.composeNextPacket maxPayloadSize onlyAck ackAllowed = .ok (pl', queue) ∧
      (pl = pl' ∨ pl = .empty ∨ pl'.frames = [] ∧ pl'.streamFrames = [] ∧
        pl = { pl' with frames := [.ping], length := pl'.length + 1 }) := by
  obtain ⟨⟨pl', queue'⟩, hpl', h⟩ := map_eq_ok_iff.mp h
  cases h
  refine ⟨pl', hpl', ?_⟩
  rw [withPing]
  split
  · rename_i hno
    rw [Bool.and_eq_true, List.isEmpty_iff, List.isEmpty_iff] at hno
    split
    · exact .inr (.inl rfl)
    · split
      · exact .inr (.inr ⟨hno.1, hno.2, rfl⟩)
      · exact .inl rfl
  · exact .inl rfl

/-- The PING that goes with an ACK. -/
theorem consistent_ping (h : pl.Consistent) (hframes : pl.frames = []) :
    Payload.Consistent { pl with frames := [.ping], length := pl.length + 1 } := by
  obtain ⟨n, hn, hlen⟩ := h.length_eq
  refine ⟨h.ack, h.streamFrames, n, hn, ?_⟩
  show pl.length + 1 = n + 1 + Framer.streamTotal pl.streamFrames
  rw [hlen, hframes, framesTotal_nil]
  omega

end PacketPacker

open PacketPacker in
/-- **The peer reads what was composed.**  Take a packer whose queues hold frames, and a parser
that knows DATAGRAM frames and this implementation's exponent for the delay of an ACK.

A payload of `composeNextPacket` is written without an error, however it is padded and
shuffled, and the parser gets from it the ACK, with its delay in units of 8 µs, the control
frames in some order, and the STREAM frames, of which only the last one has no length field.
It keeps to its budget, unless the ACK alone does not.  The same holds for the payload of
`maybeGetAppDataPacket`, which may have a PING more. -/
theorem payload_readsBack (p : PacketPacker) (hp : p.Queues) (parser : FrameParser)
    (hdatagrams : parser.supportsDatagrams = true)
    (hexponent : parser.ackDelayExponent = AckFrame.ackDelayExponent) (maxFrameSize : Int)
    (onlyAck ackAllowed : Bool) :
    (∀ pl queue, p.composeNextPacket maxFrameSize onlyAck ackAllowed = .ok (pl, queue) →
      ReadsBack parser pl ∧ Framer.StreamsReadable pl.streamFrames ∧
      (∀ a, pl.ack = some a → a.ackRanges.length ≤ maxNumAckRanges →
        (ackOnWire a).ackRanges = a.ackRanges) ∧
      ∃ ackLen, ackLength pl.ack = .ok ackLen ∧ (pl.length : Int) ≤ max maxFrameSize ackLen) ∧
    ∀ pl queue, p.maybeGetAppDataPacket maxFrameSize onlyAck ackAllowed = .ok (pl, queue) →
      ReadsBack parser pl ∧ ∃ ackLen, ackLength pl.ack = .ok ackLen ∧
        ((pl.length : Int) ≤ max maxFrameSize ackLen ∨
          pl.frames = [.ping] ∧ pl.streamFrames = [] ∧ pl.length = ackLen + 1) := by
  have hcompose : ∀ pl queue,
      p.composeNextPacket maxFrameSize onlyAck ackAllowed = .ok (pl, queue) →
      (pl.Consistent ∧ Readable pl) ∧
      ∃ ackLen, ackLength pl.ack = .ok ackLen ∧ (pl.length : Int) ≤ max maxFrameSize ackLen := by
    intro pl queue hpl
    obtain ⟨hconsistent, ackLen, hlen, hle, -⟩ :=
      (composeNextPacket_meets p maxFrameSize onlyAck ackAllowed).of_eq_ok hpl
    exact ⟨⟨hconsistent, hp.composeNextPacket hpl⟩, ackLen, hlen, hle⟩
  refine ⟨fun pl queue hpl => ?_, fun pl queue hpl => ?_⟩
  · obtain ⟨⟨hconsistent, hreadable⟩, hlen⟩ := hcompose pl queue hpl
    exact ⟨readsBack_of_readable hdatagrams hexponent hconsistent hreadable,
      hreadable.streamFrames, fun a ha => ackRanges_ackOnWire (hconsistent.ack a ha), hlen⟩
  · obtain ⟨pl', hpl', hcases⟩ := maybeGetAppDataPacket_cases hpl
    obtain ⟨⟨hconsistent, hreadable⟩, ackLen, hlen, hle⟩ := hcompose pl' queue hpl'
    obtain rfl | rfl | ⟨hframes, hstreams, rfl⟩ := hcases
    · exact ⟨readsBack_of_readable hdatagrams hexponent hconsistent hreadable, ackLen, hlen,
        .inl hle⟩
    · refine ⟨readsBack_of_readable hdatagrams hexponent Payload.consistent_empty
        ⟨nofun, Framer.streamsReadable_nil⟩, 0, rfl, .inl (Int.le_max_right _ _)⟩
    · refine ⟨readsBack_of_readable hdatagrams hexponent (consistent_ping hconsistent hframes)
        ⟨fun o ho => ?_, hreadable.streamFrames⟩, ackLen, hlen, .inr ⟨rfl, hstreams, ?_⟩⟩
      · rw [mem_singleton.mp ho]
        exact ⟨.ping, .ping⟩
      · obtain ⟨n, hn, htotal⟩ := hconsistent.length_eq
        cases hlen.symm.trans hn
        show pl'.length + 1 = ackLen + 1
        rw [htotal, hframes, hstreams]
        rfl

/-! ## A packer with something in every queue -/

namespace PacketPacker

/-- A stream with one frame to send, which is its last. -/
def lastFrame : SendStream where
  popStreamFrame _ := ⟨some ⟨4, 0, [7, 8, 9], true, true⟩, none⟩
  promise maxBytes f hmin hf := by
    cases hf
    refine ⟨⟨.inr rfl, by decide, by decide, by decide⟩, rfl, Int.le_trans ?_ hmin⟩
    decide

/-- A pending ACK frame for the packets 3 to 5, received 25 µs ago. -/
def pendingAck : AckFrame := ⟨[⟨3, 5⟩], 25000, 0, 0, 0⟩

theorem pendingAck_sendable : pendingAck.Sendable where
  nonempty := cons_ne_nil _ _
  ordered r hr := by
    rw [mem_singleton.mp hr]
    decide
  descending := pairwise_singleton _ _
  nonneg r hr := by
    rw [mem_singleton.mp hr]
    decide
  encodable r hr := by
    rw [mem_singleton.mp hr]
    decide
  delay := by decide
  ecn := by decide

/-- Something in every queue: PATH_RESPONSE, HANDSHAKE_DONE, DATAGRAM, a PING to send again,
STREAM data and an ACK. -/
def busyPacker : PacketPacker where
  srcConnID := .single 1
  destConnID := .single 2
  perspective := .server
  cryptoSetup := ⟨none, none, none, none⟩
  initialStream := ⟨0, []⟩
  handshakeStream := ⟨0, []⟩
  token := []
  pnManager _ := (0, .one)
  framer := ⟨[[0x1b, 1, 2, 3, 4, 5, 6, 7, 8]], [], [[0x1e]], [some lastFrame], none⟩
  acks _ _ := some pendingAck
  acks_sendable _ _ ack hack := by
    cases hack
    exact pendingAck_sendable
  datagramQueue := some [[0x31, 2, 9, 9]]
  retransmissionQueue := ⟨⟨[], []⟩, ⟨[], []⟩, [.ping]⟩
  numNonAckElicitingAcks := 0
  swap _ := 0
  version := .v1

theorem busyPacker_queues : busyPacker.Queues where
  framer :=
    { pathResponses := fun b hb => by
        rw [mem_singleton.mp hb]
        exact ⟨.pathResponse ⟨#v[1, 2, 3, 4, 5, 6, 7, 8]⟩, .other trivial trivial trivial rfl⟩
      streamControl := nofun
      controlFrames := fun b hb => by
        rw [mem_singleton.mp hb]
        exact ⟨.handshakeDone, .other trivial trivial trivial rfl⟩
      streams := fun s hs maxBytes => by
        cases Option.some.inj (mem_singleton.mp hs)
        refine ⟨fun f hf => ?_, nofun⟩
        cases hf
        decide
      newlyBlocked := nofun }
  datagrams queue hq b hb := by
    cases hq
    rw [mem_singleton.mp hb]
    exact ⟨.datagram ⟨true, [9, 9]⟩, .other (show 2 ≤ 2 ^ 62 - 1 by decide) trivial rfl rfl⟩
  appData o ho := by
    rw [mem_singleton.mp ho]
    exact ⟨.ping, .ping⟩

def busyPayload : Payload where
  streamFrames := [⟨4, 0, [7, 8, 9], true, false⟩]
  frames := [.other [0x31, 2, 9, 9], .ping, .other [0x1b, 1, 2, 3, 4, 5, 6, 7, 8], .other [0x1e]]
  ack := some pendingAck
  length := 25

theorem composeNextPacket_busyPacker :
    busyPacker.composeNextPacket 1000 false true = .ok (busyPayload, some []) := by
  decide +kernel

theorem payload_readsBack_busyPacker :
    busyPacker.composeNextPacket 1000 false true = .ok (busyPayload, some []) ∧
      ReadsBack ⟨3, true⟩ busyPayload :=
  ⟨composeNextPacket_busyPacker,
    ((payload_readsBack busyPacker busyPacker_queues ⟨3, true⟩ rfl rfl 1000 false true).1 _ _
      composeNextPacket_busyPacker).1⟩

/-- The ACK is put into a payload whatever the budget is, and its delay is rounded: with room
for one byte the payload takes five, and the frame that is read is not the one that was
sent. -/
theorem ack_exceeds_budget :
    let pl : Payload := ⟨[], [], some pendingAck, 5⟩
    busyPacker.composeNextPacket 1 false true = .ok (pl, busyPacker.datagramQueue) ∧
      ¬ (pl.length : Int) ≤ 1 ∧
      busyPacker.appendPacketPayload pl 0 = .ok [0x2, 5, 3, 0, 2] ∧
      (FrameParser.mk 3 true).parseAll [0x2, 5, 3, 0, 2] .oneRTT =
        .ok [.ack { pendingAck with delayTime := 24000 }] := by
  decide +kernel

end PacketPacker

end UQuic
