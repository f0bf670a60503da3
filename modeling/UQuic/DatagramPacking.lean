/-
# `UQuic.DatagramPacking` — what becomes of a queued DATAGRAM frame

`SendDatagram` accepts a frame if it fits a packet of the current size with the longest
short header, `maxDatagramFrameSizeForSend`.  `composeNextPacket` looks at the first
frame of the queue:

    it fits                        taken, and part of the packet
    it does not, there is an ACK   left in the queue
    it does not, there is no ACK   taken and thrown away

The last line is meant for a frame that will never fit.  It is also met by a frame that
would fit the next packet: behind a Handshake packet only the rest of the datagram is
left, where no ACK is asked for, and the long header of a 0-RTT packet takes up to 28
bytes more than was reserved.

## What is proved

`datagram_lost_iff`: a frame within the limit is in the packet or still in the queue after
`AppendPacket` and `MaybePackPTOProbePacket`.  After `PackCoalescedPacket` it is not exactly if
it was the first one and the packet with application data is composed without an ACK and with
too little room for it (`Cramped`).
-/
import UQuic.InitialDatagram
import UQuic.DatagramQueue

namespace UQuic

open List Except Option
open Wire (AckFrame)

def maxProtectedShortHeaderLen : Int := 1 + 20 + 4 + 16

def maxDatagramFrameSizeForSend (peerMaxFrameSize mtu : Int) : Int :=
  if peerMaxFrameSize < minLengthBearingDatagramFrameSize ∨
      mtu ≤ maxProtectedShortHeaderLen then 0
  else min peerMaxFrameSize (mtu - maxProtectedShortHeaderLen)

/-- The bytes of a DATAGRAM frame, as the packer's queue has them. -/
def DatagramFrame.bytes (f : DatagramFrame) : List UInt8 := .ofNat f.typ :: f.body

theorem DatagramFrame.length_bytes (f : DatagramFrame) : f.bytes.length = f.size := by
  rw [DatagramFrame.bytes, length_cons, f.length_body]

/-- The frames of the packets with application data. -/
def CoalescedPacket.appFrames (p : CoalescedPacket) : List OutgoingFrame :=
  (p.longHdrPackets.filter (·.header.type == .zeroRTT)).flatMap (·.frames) ++
    (p.shortHdrPacket.map (·.frames)).getD []

/-! ## One payload -/

/-- The frame behind `before` frames of the queue is taken for the packet, or stays where it
is. -/
def NotLost (f : DatagramFrame) (before after : List (List UInt8)) (frames : List OutgoingFrame)
    (left : QueuedDatagrams) : Prop :=
  (before = [] ∧ OutgoingFrame.other f.bytes ∈ frames ∧ left = some after) ∨
    ∃ before', left = some (before' ++ f.bytes :: after)

variable {f : DatagramFrame} {before after : List (List UInt8)} {s : Sealer} {keyPhaseOne : Bool}

theorem NotLost.of_queue {frames : List OutgoingFrame} {queue : QueuedDatagrams}
    (hq : queue = some (before ++ f.bytes :: after)) : NotLost f before after frames queue :=
  .inr ⟨before, hq⟩

theorem notLost_congr {frames frames' : List OutgoingFrame} {left : QueuedDatagrams}
    (h : OutgoingFrame.other f.bytes ∈ frames ↔ OutgoingFrame.other f.bytes ∈ frames') :
    NotLost f before after frames left ↔ NotLost f before after frames' left := by
  rw [NotLost, h, NotLost]

/-- A frame that is thrown away is lost. -/
theorem not_notLost {frames : List OutgoingFrame} (h : OutgoingFrame.other f.bytes ∉ frames) :
    ¬ NotLost f before after frames (some after) := by
  rintro (⟨-, hmem, -⟩ | ⟨before', hleft⟩)
  · exact h hmem
  · have hlen := congrArg List.length (some.inj hleft)
    rw [length_append, length_cons] at hlen
    omega

namespace PacketPacker

variable {p : PacketPacker} {pl : Payload} {queue : QueuedDatagrams} {onlyAck ackAllowed : Bool}

/-- No other frame of application data has the bytes of `f`. -/
structure Unmistakable (p : PacketPacker) (f : DatagramFrame) : Prop where
  retransmissions : OutgoingFrame.other f.bytes ∉ p.retransmissionQueue.appData
  framer : ∀ maxLen added, p.framer.append maxLen = some added →
    OutgoingFrame.other f.bytes ∉ added.frames

/-- The DATAGRAM frame comes before the others. -/
theorem mem_appDataFrames {ack : Option AckFrame} {ackLen : Nat} {maxFrameSize : Int}
    {dgram : List OutgoingFrame} (hother : p.Unmistakable f)
    (h : p.appDataFrames ack ackLen dgram maxFrameSize = .ok pl) :
    OutgoingFrame.other f.bytes ∈ pl.frames ↔ OutgoingFrame.other f.bytes ∈ dgram := by
  simp only [appDataFrames] at h
  split at h
  · cases h
    rfl
  · obtain ⟨⟨rs, n⟩, hrs, h⟩ := bind_eq_ok_iff.mp h
    obtain ⟨added, hadded, h⟩ := map_eq_ok_iff.mp h
    cases h
    have hnot : OutgoingFrame.other f.bytes ∉ added.frames := by
      rw [framerFrames] at hadded
      split at hadded
      · exact hother.framer _ added (orTooLarge_eq_ok hadded)
      · cases hadded
        exact not_mem_nil
    have hrs : OutgoingFrame.other f.bytes ∉ rs :=
      fun hmem => hother.retransmissions (mem_retransmissions hrs _ hmem)
    rw [mem_append, mem_append, or_iff_left hnot, or_iff_left hrs]

/-- **What becomes of a frame**: it is lost if it is the first one, the payload has no ACK and
the frame exceeds its budget. -/
theorem notLost_compose_iff {maxFrameSize : Int} (hother : p.Unmistakable f)
    (hq : p.datagramQueue = some (before ++ f.bytes :: after))
    (h : p.composeNextPacket maxFrameSize onlyAck ackAllowed = .ok (pl, queue)) :
    NotLost f before after pl.frames queue ↔ ¬(before = [] ∧ onlyAck = false ∧
      p.composeAck ackAllowed = none ∧ maxFrameSize < f.size) := by
  rw [composeNextPacket] at h
  split at h
  · rename_i honly
    obtain ⟨l, -, h⟩ := map_eq_ok_iff.mp h
    cases h
    refine iff_of_true (.of_queue hq) fun hlost => ?_
    rw [honly] at hlost
    cases hlost.2.1
  · rename_i honly
    obtain ⟨ackLen, hackLen, h⟩ := bind_eq_ok_iff.mp h
    obtain ⟨pl', hpl, h⟩ := map_eq_ok_iff.mp h
    cases h
    rw [notLost_congr (mem_appDataFrames hother hpl), hq]
    cases before with
    | cons g before =>
      -- another frame is first
      refine iff_of_true (.inr ?_) fun hlost => absurd hlost.1 (cons_ne_nil _ _)
      rw [cons_append]
      dsimp only
      split_ifs
      · exact ⟨before, rfl⟩
      · exact ⟨g :: before, rfl⟩
      · exact ⟨before, rfl⟩
    | nil =>
      have hno : p.composeAck ackAllowed = none → ackLen = 0 := by
        intro hnone
        rw [hnone] at hackLen
        cases hackLen
        rfl
      rw [nil_append]
      dsimp only
      rw [f.length_bytes]
      split_ifs with hfits hack
      · refine iff_of_true (.inl ⟨rfl, mem_singleton.mpr rfl, rfl⟩) fun hlost => ?_
        have hzero := hno hlost.2.2.1
        have hlt := hlost.2.2.2
        omega
      · refine iff_of_true (.inr ⟨[], rfl⟩) fun hlost => ?_
        rw [hlost.2.2.1] at hack
        cases hack
      · have hnone : p.composeAck ackAllowed = none := not_isSome_iff_eq_none.mp hack
        have hzero := hno hnone
        refine iff_of_false (not_notLost not_mem_nil) fun hlost => hlost ?_
        exact ⟨rfl, Bool.eq_false_iff.mpr honly, hnone, by omega⟩

/-- The payload that is handed on: an empty one is not packed, and only a PING may be added. -/
theorem notLost_maybeGetAppDataPacket_iff {maxPayloadSize : Int} (hother : p.Unmistakable f)
    (hq : p.datagramQueue = some (before ++ f.bytes :: after))
    (h : p.maybeGetAppDataPacket maxPayloadSize onlyAck ackAllowed = .ok (pl, queue)) :
    NotLost f before after (if pl.length = 0 then [] else pl.frames) queue ↔
      ¬(before = [] ∧ onlyAck = false ∧ p.composeAck ackAllowed = none ∧
        maxPayloadSize < f.size) := by
  obtain ⟨⟨pl', queue'⟩, hcompose, h⟩ := map_eq_ok_iff.mp h
  cases h
  rw [← notLost_compose_iff hother hq hcompose]
  refine notLost_congr ?_
  have hconsistent := ((composeNextPacket_meets p _ _ _).of_eq_ok hcompose).1
  by_cases hmem : OutgoingFrame.other f.bytes ∈ pl'.frames
  · -- a payload with a frame is as it was, and is not empty
    have hne : pl'.frames.isEmpty = false := isEmpty_eq_false_iff.mpr (ne_nil_of_mem hmem)
    rw [withPing, hne, Bool.false_and, if_neg Bool.false_ne_true, if_neg ?_]
    obtain ⟨n, -, hlen⟩ := hconsistent.length_eq
    dsimp only at hlen
    obtain ⟨fs, gs, hfs⟩ := append_of_mem hmem
    have htotal : framesTotal pl'.frames = framesTotal fs + (f.bytes.length + framesTotal gs) := by
      rw [hfs, framesTotal_append, framesTotal_cons]
      rfl
    have hpos : 0 < f.bytes.length := Nat.succ_pos _
    omega
  · refine iff_of_false (fun h => hmem ?_) hmem
    split at h
    · cases h
    · rw [withPing] at h
      split_ifs at h
      · cases h
      · cases mem_singleton.mp h
      · exact h
      · exact h

theorem frames_appendShortHeaderPacket {buffer b : List UInt8} {padding : Nat}
    {maxPacketSize : Int} {q : ShortHeaderPacket}
    (h : p.appendShortHeaderPacket buffer pl padding maxPacketSize s keyPhaseOne = .ok (b, q)) :
    q.frames = pl.frames := by
  simp only [appendShortHeaderPacket] at h
  obtain ⟨plaintext, -, h⟩ := bind_eq_ok_iff.mp h
  split_ifs at h
  obtain ⟨b', -, h⟩ := map_eq_ok_iff.mp h
  cases h
  rfl

end PacketPacker

/-! ## The calls -/

theorem size_le_of_valid {peerMaxFrameSize mtu : Int}
    (h : DatagramQueue.validateOutgoingDatagramFrame
      (maxDatagramFrameSizeForSend peerMaxFrameSize mtu) f = none) :
    (f.size : Int) ≤ mtu - maxProtectedShortHeaderLen := by
  rw [DatagramQueue.validateOutgoingDatagramFrame] at h
  split_ifs at h with hmin hsize
  rw [maxDatagramFrameSizeForSend] at hsize hmin
  split_ifs at hsize hmin with hz
  · exact absurd (show (0 : Int) < minLengthBearingDatagramFrameSize by decide) hmin
  · exact le_trans hsize (min_le_right _ _)

namespace UPacketPacker

open PacketPacker

variable {u : UPacketPacker} {onlyAck : Bool} {maxSize : Int} {size : Nat} {app : AppChoice}

/-- The reserve covers the longest short header. -/
theorem fits_short (hsize : (f.size : Int) ≤ maxSize - maxProtectedShortHeaderLen) :
    (f.size : Int) ≤
      maxSize - Wire.shortHeaderLen u.destConnID (u.pnManager .oneRTT).2 - sealerOverhead := by
  have hheader := shortHeaderLen_le u
  have hreserve : maxProtectedShortHeaderLen = 41 := rfl
  have hoverhead : sealerOverhead = 16 := rfl
  omega

/-- The budget for the frames of a packet with application data behind `size` bytes of other
packets, if it has no ACK. -/
inductive AckFree (u : UPacketPacker) (maxSize : Int) (size : Nat) : Int → Prop
  | oneRTT : u.cryptoSetup.oneRTT.isSome = true → u.composeAck (size == 0) = none →
      AckFree u maxSize size (maxSize - size -
        Wire.shortHeaderLen u.destConnID (u.pnManager .oneRTT).2 - sealerOverhead)
  | zeroRTT {hdrLen : Nat} : u.cryptoSetup.oneRTT = none → u.perspective = .client →
      u.cryptoSetup.zeroRTT.isSome = true →
      (u.getLongHeader .zeroRTT .zeroRTT).getLength = some hdrLen →
      AckFree u maxSize size (maxSize - size - hdrLen - sealerOverhead)

/-- Behind `size` bytes of other packets, a packet with application data is composed without an
ACK, and the frame exceeds its budget. -/
def CrampedBehind (u : UPacketPacker) (onlyAck : Bool) (maxSize : Int) (f : DatagramFrame)
    (size : Nat) : Prop :=
  onlyAck = false ∧ roomForMore onlyAck maxSize size = true ∧
    ∃ budget, u.AckFree maxSize size budget ∧ budget < f.size

/-- The Initial packet of a datagram. -/
def preparedInitial (u : UPacketPacker) (onlyAck : Bool) (maxSize : Int) :
    Except PackFailure Prepared :=
  match u.cryptoSetup.initial with
  | none => .ok (.nothing u)
  | some _ => u.prepareInitialPacket maxSize onlyAck

/-- The size of the Initial and the Handshake packet of a datagram. -/
def sizeInFront (u : UPacketPacker) (onlyAck : Bool) (maxSize : Int) : Except PackFailure Nat :=
  (u.preparedInitial onlyAck maxSize).bind fun r => (initialSize r).bind fun size =>
    (u.chooseHandshake onlyAck maxSize size).map Prod.snd

/-- The same, behind the Initial and the Handshake packet. -/
def Cramped (u : UPacketPacker) (onlyAck : Bool) (maxSize : Int) (f : DatagramFrame) : Prop :=
  ∃ size, u.sizeInFront onlyAck maxSize = .ok size ∧ u.CrampedBehind onlyAck maxSize f size

/-! ### What is in the packet -/

def AppChoice.frames : AppChoice → List OutgoingFrame
  | .none => []
  | .zeroRTT c => c.payload.frames
  | .oneRTT pl _ _ => pl.frames

/-- Long header packets other than 0-RTT packets. -/
def NoAppData (packets : List LongHeaderPacket) : Prop := ∀ q ∈ packets, q.header.type ≠ .zeroRTT

theorem filter_noAppData {packets : List LongHeaderPacket} (h : NoAppData packets) :
    packets.filter (·.header.type == .zeroRTT) = [] :=
  filter_eq_nil_iff.mpr fun q hq heq => h q hq (eq_of_beq heq)

theorem appFrames_appendAppData {buffer : List UInt8} {packets : List LongHeaderPacket}
    {laidOut : Bool} {q : CoalescedPacket} (hpackets : NoAppData packets)
    (hzero : ∀ c, app = .zeroRTT c → c.hdr.type = .zeroRTT)
    (h : u.appendAppData buffer packets laidOut size maxSize app = .ok q) :
    q.appFrames = app.frames := by
  have hnil := filter_noAppData hpackets
  cases app with
  | none =>
    cases h
    rw [CoalescedPacket.appFrames, hnil]
    rfl
  | zeroRTT c =>
    obtain ⟨⟨b, ps⟩, hps, h⟩ := map_eq_ok_iff.mp h
    obtain ⟨⟨b', q'⟩, hq', hps⟩ := map_eq_ok_iff.mp hps
    cases hps
    cases h
    obtain ⟨htype, hframes⟩ := appendLongHeaderPacket_eq_ok hq'
    have hone : [q'].filter (·.header.type == .zeroRTT) = [q'] := by
      rw [filter_singleton, htype, hzero c rfl]
      rfl
    rw [CoalescedPacket.appFrames, filter_append, hnil, hone]
    show q'.frames ++ [] ++ [] = c.payload.frames
    rw [append_nil, append_nil, hframes]
  | oneRTT pl s keyPhaseOne =>
    obtain ⟨⟨b, q'⟩, hq', h⟩ := map_eq_ok_iff.mp h
    cases h
    rw [CoalescedPacket.appFrames, hnil]
    exact frames_appendShortHeaderPacket hq'

theorem Prepares.type_eq {r : Prepared} (h : Prepares u maxSize onlyAck r) :
    ∀ hdr, r.hdr = some hdr → hdr.type = .initial := by
  have hcollected : ∀ {c : CryptoPacket} {hdr}, u.collect maxSize onlyAck = .ok c →
      c.hdr = some hdr → hdr.type = .initial := by
    intro c hdr hc hhdr
    rw [((maybeGetCryptoPacket_meets _ _ _ _ _ _ _ _).of_eq_ok hc).hdr hdr hhdr]
    rfl
  intro hdr hhdr
  cases h with
  | nothing => cases hhdr
  | noFrames hc _ hhdr' _ =>
    cases hhdr
    exact hcollected hc hhdr'
  | laidOut hc _ hhdr' _ _ _ _ hlaid =>
    obtain ⟨data, cryptoEnd, ackLen, k, hlaid⟩ := layOutInitial_eq_ok hlaid
    rw [hlaid.prepared] at hhdr
    cases hhdr
    exact hcollected hc hhdr'

theorem appFrames_packAfterInitial {r : Prepared} {o : Option CoalescedPacket}
    {handshake : Option LongChoice} {a : AppChosen}
    (htype : ∀ hdr, r.hdr = some hdr → hdr.type = .initial)
    (hrest : u.chooseRest r onlyAck maxSize = .ok (handshake, a))
    (h : u.packAfterInitial r s onlyAck maxSize = .ok o) :
    (o.map CoalescedPacket.appFrames).getD [] = a.app.frames := by
  rw [packAfterInitial, hrest] at h
  obtain ⟨size, -, hrest⟩ := bind_eq_ok_iff.mp hrest
  obtain ⟨⟨handshake', size₁⟩, hhandshake, hrest⟩ := bind_eq_ok_iff.mp hrest
  obtain ⟨a', happ, hrest⟩ := map_eq_ok_iff.mp hrest
  cases hrest
  have h : (if r.payload.length = 0 ∧ handshake.isNone ∧ a.app.isNone then .ok none
    else (u.assemble r s onlyAck handshake a.app a.size maxSize).map some) = .ok o := h
  split_ifs at h with hnothing
  · cases h
    cases happ' : a.app with
    | none => rfl
    | zeroRTT c | oneRTT pl s keyPhaseOne =>
      rw [happ'] at hnothing
      cases hnothing.2.2
  · obtain ⟨q, hq, h⟩ := map_eq_ok_iff.mp h
    cases h
    obtain ⟨⟨b, packets⟩, hinitial, hq⟩ := bind_eq_ok_iff.mp hq
    obtain ⟨⟨b₁, packets₁⟩, hchoice, hq⟩ := bind_eq_ok_iff.mp hq
    obtain ⟨q', happD, hfinish⟩ := map_eq_ok_iff.mp hq
    obtain ⟨qs, rfl, hqs⟩ := appendChoice_eq_ok hchoice
    have hfront : NoAppData (packets ++ qs) := by
      intro q hq
      rcases mem_append.mp hq with hq | hq
      · obtain ⟨hdr, hhdr, hkind, -⟩ := appendInitial_eq_ok hinitial q hq
        rw [hkind, htype hdr hhdr]
        exact nofun
      · obtain ⟨c, rfl, hkind⟩ := hqs q hq
        rw [hkind, chooseHandshake_type hhandshake]
        exact nofun
    show q.appFrames = a.app.frames
    rw [← appFrames_appendAppData hfront (fun c hc => chooseAppData_type happ hc) happD, ← hfinish,
      finish]
    split <;> rfl

section Queued

variable (hother : u.Unmistakable f) (hq : u.datagramQueue = some (before ++ f.bytes :: after))

include hother hq

theorem notLost_chooseZeroRTT {a : AppChosen} {hdrLen : Nat}
    (hlength : (u.getLongHeader .zeroRTT .zeroRTT).getLength = some hdrLen)
    (h : u.chooseZeroRTT maxSize size s = .ok a) :
    NotLost f before after a.app.frames a.datagramQueue ↔
      ¬(before = [] ∧ maxSize - size - hdrLen - sealerOverhead < f.size) := by
  simp only [chooseZeroRTT] at h
  rw [hlength] at h
  obtain ⟨l, hl, h⟩ := bind_eq_ok_iff.mp h
  cases hl
  obtain ⟨⟨pl, queue⟩, hpl, h⟩ := bind_eq_ok_iff.mp h
  have hiff := notLost_maybeGetAppDataPacket_iff hother hq hpl
  simp only [composeAck, Bool.false_eq_true, if_false, true_and] at hiff
  dsimp only at h
  split_ifs at h hiff with hz
  · cases h
    exact hiff
  · obtain ⟨l, -, h⟩ := map_eq_ok_iff.mp h
    subst h
    exact hiff

theorem notLost_chooseOneRTT {a : AppChosen}
    (h : u.chooseOneRTT onlyAck maxSize size s keyPhaseOne = .ok a) :
    NotLost f before after a.app.frames a.datagramQueue ↔
      ¬(before = [] ∧ onlyAck = false ∧ u.composeAck (size == 0) = none ∧ maxSize - size -
        Wire.shortHeaderLen u.destConnID (u.pnManager .oneRTT).2 - sealerOverhead < f.size) := by
  obtain ⟨⟨pl, queue⟩, hpl, h⟩ := map_eq_ok_iff.mp h
  have hiff := notLost_maybeGetAppDataPacket_iff hother hq hpl
  dsimp only at h
  split_ifs at h hiff with hz
  · subst h
    exact hiff
  · subst h
    exact hiff

/-- The choice of the packet with application data. -/
theorem notLost_chooseAppData {a : AppChosen} (h : u.chooseAppData onlyAck maxSize size = .ok a) :
    NotLost f before after a.app.frames a.datagramQueue ↔
      ¬(before = [] ∧ u.CrampedBehind onlyAck maxSize f size) := by
  rw [chooseAppData] at h
  split at h
  · rename_i hroom
    split at h
    · rename_i s keyPhaseOne hkeys
      rw [notLost_chooseOneRTT hother hq h]
      refine not_congr (and_congr_right fun _ => and_congr_right fun _ => ?_)
      constructor
      · rintro ⟨hnone, hlt⟩
        exact ⟨hroom, _, .oneRTT (by rw [hkeys]; rfl) hnone, hlt⟩
      · rintro ⟨-, budget, hfree, hlt⟩
        cases hfree with
        | oneRTT _ hnone => exact ⟨hnone, hlt⟩
        | zeroRTT hno _ _ _ =>
          rw [hkeys] at hno
          cases hno
    · rename_i hkeys
      -- without 1-RTT keys, the budget is that of a 0-RTT packet
      have hzero : ∀ {budget : Int}, u.AckFree maxSize size budget → u.perspective = .client ∧
          u.cryptoSetup.zeroRTT.isSome = true ∧
          ∃ hdrLen, (u.getLongHeader .zeroRTT .zeroRTT).getLength = some hdrLen ∧
            budget = maxSize - size - hdrLen - sealerOverhead := by
        intro budget hfree
        cases hfree with
        | oneRTT hsome _ =>
          rw [hkeys] at hsome
          cases hsome
        | zeroRTT _ hclient hsome hlength => exact ⟨hclient, hsome, _, hlength, rfl⟩
      split_ifs at h with hclient
      · split at h
        · rename_i hnone
          cases h
          refine iff_of_true (.of_queue hq) ?_
          rintro ⟨-, -, -, budget, hfree, -⟩
          have hsome := (hzero hfree).2.1
          rw [hnone] at hsome
          cases hsome
        · rename_i s hsome
          cases hlength : (u.getLongHeader .zeroRTT .zeroRTT).getLength with
          | none =>
            rw [chooseZeroRTT, hlength] at h
            cases h
          | some hdrLen =>
            rw [notLost_chooseZeroRTT hother hq hlength h]
            refine not_congr (and_congr_right fun _ => ?_)
            constructor
            · intro hlt
              exact ⟨hclient.2, hroom, _, .zeroRTT hkeys hclient.1 (by rw [hsome]; rfl) hlength,
                hlt⟩
            · rintro ⟨-, -, budget, hfree, hlt⟩
              obtain ⟨-, -, l, hl, rfl⟩ := hzero hfree
              cases hl.symm.trans hlength
              exact hlt
      · cases h
        refine iff_of_true (.of_queue hq) ?_
        rintro ⟨-, honly, -, budget, hfree, -⟩
        exact hclient ⟨(hzero hfree).1, honly⟩
  · rename_i hroom
    cases h
    exact iff_of_true (.of_queue hq) fun hlost => hroom hlost.2.2.1

theorem notLost_afterChoice {r : Prepared} {o : Option CoalescedPacket}
    (hprepared : u.preparedInitial onlyAck maxSize = .ok r)
    (htype : ∀ hdr, r.hdr = some hdr → hdr.type = .initial)
    (h : u.packAfterInitial r s onlyAck maxSize = .ok o) :
    NotLost f before after ((o.map CoalescedPacket.appFrames).getD [])
      (u.afterChoice r onlyAck maxSize).datagramQueue ↔
      ¬(before = [] ∧ u.Cramped onlyAck maxSize f) := by
  obtain ⟨⟨handshake, a⟩, hrest, -⟩ := bind_eq_ok_iff.mp h
  rw [appFrames_packAfterInitial htype hrest h, afterChoice, hrest]
  obtain ⟨size, hsize, hrest⟩ := bind_eq_ok_iff.mp hrest
  obtain ⟨⟨handshake', size₁⟩, hhandshake, hrest⟩ := bind_eq_ok_iff.mp hrest
  obtain ⟨a', happ, hrest⟩ := map_eq_ok_iff.mp hrest
  cases hrest
  have hfront : u.sizeInFront onlyAck maxSize = .ok size₁ := by
    rw [sizeInFront, hprepared]
    show (initialSize r).bind _ = _
    rw [hsize]
    show (u.chooseHandshake onlyAck maxSize size).map Prod.snd = _
    rw [hhandshake]
    rfl
  refine (notLost_chooseAppData hother hq happ).trans (not_congr (and_congr_right fun _ => ?_))
  constructor
  · exact fun hcramped => ⟨size₁, hfront, hcramped⟩
  · rintro ⟨size', hsize', hcramped⟩
    cases hsize'.symm.trans hfront
    exact hcramped

theorem notLost_packCoalescedPacket {o : Option CoalescedPacket}
    (h : (u.packCoalescedPacket onlyAck maxSize).2 = .ok o) :
    NotLost f before after ((o.map CoalescedPacket.appFrames).getD [])
      (u.packCoalescedPacket onlyAck maxSize).1.datagramQueue ↔
      ¬(before = [] ∧ u.Cramped onlyAck maxSize f) := by
  rw [packCoalescedPacket] at h ⊢
  split at h
  · rename_i hno
    refine notLost_afterChoice hother hq ?_ (fun hdr hhdr => ?_) h
    · rw [preparedInitial, hno]
    · cases hhdr
  · rename_i s hs
    split at h
    · cases h
    · rename_i r hr
      refine notLost_afterChoice hother hq ?_ (prepareInitialPacket_eq_ok hr).type_eq h
      rw [preparedInitial, hs]
      exact hr

variable (hsize : (f.size : Int) ≤ maxSize - maxProtectedShortHeaderLen)

include hsize

theorem notLost_appendPacket {buffer : List UInt8} {r : Option (List UInt8 × ShortHeaderPacket)}
    (h : (u.appendPacket buffer onlyAck maxSize).2 = .ok r) :
    NotLost f before after ((r.map (·.2.frames)).getD [])
      (u.appendPacket buffer onlyAck maxSize).1.datagramQueue := by
  rw [appendPacket] at h ⊢
  split at h
  · cases h
  · dsimp only at h ⊢
    split at h
    · cases h
    · rename_i pl queue hpl
      have hnot := (notLost_maybeGetAppDataPacket_iff hother hq hpl).mpr fun hlost =>
        absurd hlost.2.2.2 (Int.not_lt.mpr (fits_short hsize))
      dsimp only at h
      split_ifs at h hnot with hz
      · cases h
        exact hnot
      · obtain ⟨⟨b, q⟩, hpacket, h⟩ := map_eq_ok_iff.mp h
        cases h
        rw [← frames_appendShortHeaderPacket hpacket] at hnot
        exact hnot

theorem notLost_maybePackPTOProbePacket {encLevel : EncryptionLevel} {r : Option CoalescedPacket}
    (h : (u.maybePackPTOProbePacket encLevel maxSize).2 = .ok r) :
    NotLost f before after ((r.map CoalescedPacket.appFrames).getD [])
      (u.maybePackPTOProbePacket encLevel maxSize).1.datagramQueue := by
  cases encLevel with
  | initial =>
    rw [maybePackPTOProbePacket]
    split
    · exact .of_queue hq
    · split <;> exact .of_queue hq
  | handshake =>
    rw [maybePackPTOProbePacket]
    split <;> exact .of_queue hq
  | zeroRTT => exact .of_queue hq
  | oneRTT =>
    rw [maybePackPTOProbePacket] at h ⊢
    split at h
    · cases h
    · rename_i s keyPhaseOne hkeys
      rw [probeOneRTT] at h ⊢
      split at h
      · cases h
      · rename_i pl queue hpl
        have hnot := (notLost_maybeGetAppDataPacket_iff hother hq hpl).mpr fun hlost => by
          have hfits := fits_short (u := u) hsize
          have hlt := hlost.2.2.2
          omega
        dsimp only at h
        split_ifs at h hnot with hz
        · cases h
          exact hnot
        · obtain ⟨⟨b, q⟩, hpacket, h⟩ := map_eq_ok_iff.mp h
          cases h
          rw [← frames_appendShortHeaderPacket hpacket] at hnot
          exact hnot

end Queued

/-- **When an accepted datagram is thrown away.**  After a call that returns no error it is part of
the packet or still in the queue; for `PackCoalescedPacket`, exactly if it was not the first one in
the queue, or there was room. -/
theorem datagram_lost_iff (u : UPacketPacker) (f : DatagramFrame) (before after : List (List UInt8))
    (peerMaxFrameSize mtu : Int) (hq : u.datagramQueue = some (before ++ f.bytes :: after))
    (hother : u.Unmistakable f) (hlimit : DatagramQueue.validateOutgoingDatagramFrame
      (maxDatagramFrameSizeForSend peerMaxFrameSize mtu) f = none) :
    (∀ buffer r, (u.appendPacket buffer false mtu).2 = .ok r →
      NotLost f before after ((r.map (·.2.frames)).getD [])
        (u.appendPacket buffer false mtu).1.datagramQueue) ∧
    (∀ encLevel r, (u.maybePackPTOProbePacket encLevel mtu).2 = .ok r →
      NotLost f before after ((r.map CoalescedPacket.appFrames).getD [])
        (u.maybePackPTOProbePacket encLevel mtu).1.datagramQueue) ∧
    ∀ onlyAck r, (u.packCoalescedPacket onlyAck mtu).2 = .ok r →
      (NotLost f before after ((r.map CoalescedPacket.appFrames).getD [])
        (u.packCoalescedPacket onlyAck mtu).1.datagramQueue ↔
      ¬(before = [] ∧ u.Cramped onlyAck mtu f)) := by
  have hsize := size_le_of_valid hlimit
  refine ⟨?_, ?_, ?_⟩
  · intro buffer r h
    exact notLost_appendPacket hother hq hsize h
  · intro encLevel r h
    exact notLost_maybePackPTOProbePacket hother hq hsize h
  · intro onlyAck r h
    exact notLost_packCoalescedPacket hother hq h

/-- A client with three bytes of Handshake data, 1-RTT keys and a queued frame. -/
def handshakeClient (f : DatagramFrame) : UPacketPacker :=
  { threeBytesClient with
    cryptoSetup := ⟨none, some noSealer, none, some (noSealer, false)⟩
    initialStream := ⟨0, []⟩
    handshakeStream := ⟨0, [7, 8, 9]⟩
    framer := ⟨[], [], [], [], none⟩
    datagramQueue := some [f.bytes] }

/-- A short frame is packed behind the Handshake packet. -/
theorem datagram_lost_iff_short :
    ∃ r, ((handshakeClient ⟨true, [5]⟩).packCoalescedPacket false 200).2 = .ok r ∧
      NotLost ⟨true, [5]⟩ [] [] ((r.map CoalescedPacket.appFrames).getD [])
        ((handshakeClient ⟨true, [5]⟩).packCoalescedPacket false 200).1.datagramQueue := by
  have hok : ((handshakeClient ⟨true, [5]⟩).packCoalescedPacket false 200).2.toOption.isSome := by
    decide +kernel
  obtain ⟨r, hr⟩ := isSome_iff_exists.mp hok
  have hr := toOption_eq_some_iff.mp hr
  have hsize : ∀ size ∈ ((handshakeClient ⟨true, [5]⟩).sizeInFront false 200).toOption,
      size ≤ 71 := by
    decide +kernel
  have hother : (handshakeClient ⟨true, [5]⟩).Unmistakable ⟨true, [5]⟩ := by
    refine ⟨not_mem_nil, fun maxLen added hadded => ?_⟩
    cases hadded
    exact not_mem_nil
  refine ⟨r, hr, ((datagram_lost_iff (handshakeClient ⟨true, [5]⟩) ⟨true, [5]⟩ [] [] 65535 200 rfl
    hother (by decide)).2.2 false r hr).mpr ?_⟩
  rintro ⟨-, size, hfront, -, -, budget, hfree, hlt⟩
  have hle := hsize size (toOption_eq_some_iff.mpr hfront)
  cases hfree with
  | oneRTT =>
    have hlt : 200 - (size : Int) - 3 - 16 < 3 := hlt
    omega
  | zeroRTT hno _ _ _ => cases hno

/-- The longest frame that is accepted at an MTU of 1200 bytes. -/
def longestDatagram : DatagramFrame := ⟨true, List.replicate 1156 0⟩

/-- **It is lost behind a Handshake packet**: the datagram that is produced does not contain it,
and the queue is empty. -/
theorem datagram_lost_behind_handshake :
    DatagramQueue.validateOutgoingDatagramFrame (maxDatagramFrameSizeForSend 65535 1200)
      longestDatagram = none ∧
    ∃ p, ((handshakeClient longestDatagram).packCoalescedPacket false 1200).2 = .ok (some p) ∧
      (∀ q ∈ p.longHdrPackets, OutgoingFrame.other longestDatagram.bytes ∉ q.frames) ∧
      p.shortHdrPacket.isNone = true ∧
      ((handshakeClient longestDatagram).packCoalescedPacket false 1200).1.datagramQueue =
        some [] := by
  have hlost :
      (((handshakeClient longestDatagram).packCoalescedPacket false 1200).2.toOption.join.any
        fun p => decide ((∀ q ∈ p.longHdrPackets,
          OutgoingFrame.other longestDatagram.bytes ∉ q.frames) ∧
          p.shortHdrPacket.isNone = true)) = true := by
    decide +kernel
  have hqueue : ((handshakeClient longestDatagram).packCoalescedPacket false 1200).1.datagramQueue =
      some [] := by
    decide +kernel
  generalize (handshakeClient longestDatagram).packCoalescedPacket false 1200 = x at hlost hqueue ⊢
  obtain ⟨p, hp, hnot⟩ := (any_eq_true _ _).mp hlost
  have hok := toOption_eq_some_iff.mp (join_eq_some_iff.mp hp)
  obtain ⟨hnot, hnone⟩ := of_decide_eq_true hnot
  exact ⟨by decide +kernel, p, hok, hnot, hnone, hqueue⟩

end UPacketPacker

end UQuic
