/-
# `UQuic.InitialCrypto` — no byte of the Initial crypto stream is lost or changed

The crypto stream and the Initial part of the retransmission queue, with everything that
changes them:

    write                       the handshake has more to say
    packCoalescedPacket         ┐ take frames and return a packet, which is in flight from
    maybePackPTOProbePacket     ┘ then on
    onLost                      a frame of an earlier packet goes to the queue
    onAcked                     it has arrived
    addPing                     a probe packet is to be sent

Each call of the packer has keys, ACKs, frames of other packets, random choices and a budget
of its own.  A frame may be reported lost or acknowledged in any order, and more than once.

## What is proved

`initialCrypto_conserved`: after any such calls, every byte on the wire is the byte that was
written at its offset, the frames on the wire cover what the recorded ones cover, and every
offset that was written waits in the stream or in the queue, is in flight, or was acknowledged.
-/
import UQuic.InitialLayout
import UQuic.Lib.Machine

namespace UQuic

open List Except
open Wire (CryptoFrame Frame Reads)

instance (e : BuildError) : Decidable e.Returned := by
  cases e <;> first | exact isTrue trivial | exact isFalse id

instance (e : PackFailure) : Decidable e.Panics := by
  cases e <;> first
    | exact isTrue trivial
    | exact isFalse id
    | exact inferInstanceAs (Decidable (¬ _))

instance (b : FrameBuilder) : Decidable b.Supported := by
  cases b <;> first | exact isTrue trivial | exact inferInstanceAs (Decidable (_ = []))

namespace UPacketPacker

open PacketPacker

/-! ## What one call of the packer does -/

/-- The Initial packets that a call returns. -/
def initialPackets : Except PackFailure (Option CoalescedPacket) → List LongHeaderPacket
  | .ok (some p) => p.longHdrPackets.filter fun q => q.header.type == .initial
  | .ok none => []
  | .error _ => []

/-- Nothing is lost by a call that returns: what was waiting waits, or is in a packet. -/
structure Produces (S : List UInt8) (u u' : UPacketPacker)
    (res : Except PackFailure (Option CoalescedPacket)) : Prop where
  holds : Holds S u'.initialStream u'.retransmissionQueue.initial
  covered : ∀ o, Covered (waiting u.initialStream u.retransmissionQueue.initial) o →
    Covered (waiting u'.initialStream u'.retransmissionQueue.initial) o ∨
      ∃ q ∈ initialPackets res, Covered (cryptos q.frames) o
  faithful : ∀ q ∈ initialPackets res, Faithful S q.frames q.plaintext

section Call

variable {S : List UInt8} {u : UPacketPacker} {r : Prepared} {maxSize : Int} {onlyAck : Bool}
variable {res : Except PackFailure (Option CoalescedPacket)}

variable {q : LongHeaderPacket}

theorem mem_initialPackets (h : q ∈ initialPackets res) :
    ∃ p, res = .ok (some p) ∧ q ∈ p.longHdrPackets ∧ q.header.type = .initial := by
  cases res with
  | error e => cases h
  | ok o =>
    cases o with
    | none => cases h
    | some p =>
      obtain ⟨hq, htype⟩ := mem_filter.mp h
      exact ⟨p, rfl, hq, eq_of_beq htype⟩

/-- Once the layout is fixed, the packet with it is returned. -/
theorem Conserves.produces_laid (h : Conserves S u r) {data : List UInt8}
    (hdata : r.data = some data)
    (hmeets : res.Meets (fun o => ∃ p, o = some p ∧ Packed u maxSize r data p) PackFailure.Panics)
    (hreturns : ∀ e, res = .error e → ¬ e.Panics) (u' : UPacketPacker) :
    Produces S u (u'.commit r) res := by
  cases res with
  | error e => exact absurd hmeets (hreturns e rfl)
  | ok o =>
    obtain ⟨p, rfl, hpacked⟩ := hmeets
    obtain ⟨q, qs, hp, htype, hframes, hplaintext, hqs⟩ := hpacked.initial
    have hq : q ∈ initialPackets (.ok (some p)) := by
      refine mem_filter.mpr ⟨?_, beq_iff_eq.mpr htype⟩
      rw [hp]
      exact mem_cons_self
    refine ⟨h.holds, fun o ho => (h.covered o ho).imp_right fun ho => ⟨q, hq, ?_⟩, ?_⟩
    · rw [hframes]
      exact ho.2
    · intro q' hq'
      obtain ⟨p', hp', hmem, htype'⟩ := mem_initialPackets hq'
      cases hp'
      rw [hp] at hmem
      rcases mem_cons.mp hmem with rfl | hmem
      · rw [hframes, hplaintext]
        exact (h.laid data hdata).1
      · exact absurd htype' (hqs q' hmem)

/-- Without a layout, an Initial packet carries an ACK at most. -/
theorem Conserves.produces_unlaid (h : Conserves S u r) (hdata : r.data = none)
    (hpackets : ∀ q ∈ initialPackets res, Faithful S q.frames q.plaintext) (u' : UPacketPacker) :
    Produces S u (u'.commit r) res := by
  refine ⟨h.holds, fun o ho => ?_, hpackets⟩
  rcases h.covered o ho with ho | ⟨hsome, -⟩
  · exact .inl ho
  · rw [hdata] at hsome
    cases hsome

/-- The ACK is written without a CRYPTO frame. -/
theorem Conserves.ack_faithful (h : Conserves S u r) (hdata : r.data = none)
    (hpos : r.payload.length ≠ 0) {hdr : Wire.ExtendedHeader} (hhdr : r.hdr = some hdr)
    {p : PacketPacker} {padding : Nat} {s : Sealer} {b : List UInt8}
    (hq : p.appendLongHeaderPacket [] hdr r.payload padding s = .ok (b, q)) :
    Faithful S q.frames q.plaintext := by
  obtain ⟨hframes, hstream, hconsistent⟩ := h.unlaid hdata hpos
  have hretry : hdr.type ≠ .retry := by
    rw [h.type_eq hdr hhdr]
    exact nofun
  obtain ⟨plaintext, raw, hsealed, -, hack⟩ :=
    (appendLongHeaderPacket_meets p [] hretry hconsistent padding s).of_eq_ok hq
  obtain ⟨fs, hreads, hcrypto⟩ := hack hframes hstream
  rw [show q.frames = _ from hsealed.frames_eq, show q.plaintext = _ from hsealed.plaintext_eq,
    hframes]
  exact faithful_nil hreads hcrypto

theorem Conserves.packAfterInitial_unlaid (h : Conserves S u r) (hdata : r.data = none)
    (s : Sealer) : ∀ q ∈ initialPackets (u.packAfterInitial r s onlyAck maxSize),
      Faithful S q.frames q.plaintext := by
  intro q hq
  obtain ⟨p, hp, hmem, htype⟩ := mem_initialPackets hq
  obtain ⟨size, buffer, packets, qs, hinitial, hpackets, hqs⟩ := packAfterInitial_eq_ok hp
  rw [hpackets] at hmem
  rcases mem_append.mp hmem with hmem | hmem
  · simp only [appendInitial] at hinitial
    split at hinitial
    · cases hinitial
      cases hmem
    · rename_i hdr hhdr
      split at hinitial
      · cases hinitial
        cases hmem
      · rename_i hpos
        rw [if_pos (.inr (h.unlaid hdata hpos).1)] at hinitial
        obtain ⟨⟨b, q'⟩, hq', heq⟩ := map_eq_ok_iff.mp hinitial
        cases heq
        rw [mem_singleton.mp hmem]
        exact h.ack_faithful hdata hpos hhdr hq'
  · exact absurd htype (hqs q hmem)

theorem Conserves.probeInitial_unlaid (h : Conserves S u r) (hdata : r.data = none)
    (s : Sealer) : ∀ q ∈ initialPackets (u.probeInitial r s maxSize),
      Faithful S q.frames q.plaintext := by
  intro q hq
  obtain ⟨p, hp, hmem, -⟩ := mem_initialPackets hq
  simp only [probeInitial] at hp
  split at hp
  · cases hp
  · rename_i hdr hhdr
    split_ifs at hp with hpos
    · cases hp
    · obtain ⟨l, -, hp⟩ := bind_eq_ok_iff.mp hp
      rw [hdata] at hp
      obtain ⟨⟨b, q'⟩, hq', heq⟩ := map_eq_ok_iff.mp hp
      cases heq
      rw [mem_singleton.mp (show q ∈ [q'] from hmem)]
      exact h.ack_faithful hdata hpos hhdr hq'

/-- A call that leaves the crypto data as it was, and returns no Initial packet. -/
theorem produces_nothing (hS : Holds S u.initialStream u.retransmissionQueue.initial)
    (hno : initialPackets res = []) : Produces S u u res := by
  refine ⟨hS, fun o ho => .inl ho, ?_⟩
  rw [hno]
  exact forall_mem_nil _

/-- The choice of the other packets takes a DATAGRAM frame at most. -/
theorem Produces.afterChoice (h : Produces S u u res) (r : Prepared) :
    Produces S u (u.afterChoice r onlyAck maxSize) res := by
  rw [UPacketPacker.afterChoice]
  split
  · exact h
  · exact ⟨h.holds, h.covered, h.faithful⟩

/-- **`PackCoalescedPacket` conserves the crypto data.** -/
theorem packCoalescedPacket_produces (hbuilder : u.uSpec.frameBuilder.Supported)
    (hS : Holds S u.initialStream u.retransmissionQueue.initial)
    (hreturns : ∀ e, (u.packCoalescedPacket onlyAck maxSize).2 = .error e → ¬ e.Panics) :
    Produces S u (u.packCoalescedPacket onlyAck maxSize).1
      (u.packCoalescedPacket onlyAck maxSize).2 := by
  rw [packCoalescedPacket.eq_def] at hreturns ⊢
  split
  · -- without Initial keys there is no Initial packet
    refine (produces_nothing hS (eq_nil_iff_forall_not_mem.mpr fun q hq => ?_)).afterChoice _
    obtain ⟨p, hp, hmem, htype⟩ := mem_initialPackets hq
    have hp : u.packAfterInitial (.nothing u) noSealer onlyAck maxSize = .ok (some p) := hp
    obtain ⟨size, buffer, packets, qs, hinitial, hpackets, hqs⟩ := packAfterInitial_eq_ok hp
    cases hinitial
    rw [hpackets] at hmem
    exact hqs q hmem htype
  · rename_i s hs
    simp only [hs] at hreturns
    split
    · exact produces_nothing hS rfl
    · rename_i r hr
      simp only [hr] at hreturns
      have hprepares := prepareInitialPacket_eq_ok hr
      have hconserves := hprepares.conserves hbuilder hS
      rcases hprepares.ready with ⟨rfl, hdr, data, hready⟩ | ⟨hdata, -⟩
      · have hpos := (hconserves.laid data hready.data_eq).2
        exact hconserves.produces_laid hready.data_eq
          (packAfterInitial_meets u hready hpos s) hreturns _
      · exact hconserves.produces_unlaid hdata (hconserves.packAfterInitial_unlaid hdata s) _

/-- **`MaybePackPTOProbePacket` conserves the crypto data.** -/
theorem maybePackPTOProbePacket_produces (hbuilder : u.uSpec.frameBuilder.Supported)
    (hS : Holds S u.initialStream u.retransmissionQueue.initial)
    (hreturns : ∀ e, (u.maybePackPTOProbePacket .initial maxSize).2 = .error e → ¬ e.Panics) :
    Produces S u (u.maybePackPTOProbePacket .initial maxSize).1
      (u.maybePackPTOProbePacket .initial maxSize).2 := by
  simp only [maybePackPTOProbePacket] at hreturns ⊢
  split
  · exact produces_nothing hS rfl
  · rename_i s hs
    simp only [hs] at hreturns
    split
    · exact produces_nothing hS rfl
    · rename_i r hr
      simp only [hr] at hreturns
      have hprepares := prepareInitialPacket_eq_ok hr
      have hconserves := hprepares.conserves hbuilder hS
      rcases hprepares.ready with ⟨-, hdr, data, hready⟩ | ⟨hdata, -⟩
      · have hpos := (hconserves.laid data hready.data_eq).2
        exact hconserves.produces_laid hready.data_eq
          (probeInitial_meets u hready hpos s) hreturns u
      · exact hconserves.produces_unlaid hdata (hconserves.probeInitial_unlaid hdata s) u

end Call

end UPacketPacker

/-! ## The Initial crypto data of a connection -/

open UPacketPacker

/-- The crypto stream and the queue, with what was written to the stream and what became of
the frames that were sent. -/
structure InitialCrypto where
  stream : CryptoStream
  queue : LevelQueue
  written : List UInt8
  packets : List LongHeaderPacket
  inFlight : List OutgoingFrame
  acked : List OutgoingFrame

/-- The calls that change them.  A packer stands for all that a call finds in the connection,
apart from the Initial crypto data. -/
inductive InitialCall
  | write (p : List UInt8)
  | packCoalescedPacket (u : UPacketPacker) (onlyAck : Bool) (maxSize : Int)
  | maybePackPTOProbePacket (u : UPacketPacker) (maxSize : Int)
  | addPing
  | onLost (f : OutgoingFrame)
  | onAcked (f : OutgoingFrame)

namespace InitialCrypto

def new : InitialCrypto := ⟨⟨0, []⟩, ⟨[], []⟩, [], [], [], []⟩

def packer (s : InitialCrypto) (u : UPacketPacker) : UPacketPacker :=
  u.commit { UPacketPacker.Prepared.nothing u with stream := s.stream, queue := s.queue }

/-- After a call of the packer that has not ended the program. -/
def produce (s : InitialCrypto) (u' : UPacketPacker)
    (res : Except PackFailure (Option CoalescedPacket)) : InitialCrypto :=
  { s with
    stream := u'.initialStream
    queue := u'.retransmissionQueue.initial
    packets := s.packets ++ initialPackets res
    inFlight := s.inFlight ++ (initialPackets res).flatMap (·.frames) }

def panics : Except PackFailure (Option CoalescedPacket) → Bool
  | .error e => e.Panics
  | .ok _ => false

/-- The frames of earlier packets. -/
def sent (s : InitialCrypto) : List OutgoingFrame := s.packets.flatMap (·.frames)

/-- One call.  A frame that is reported is one of an earlier packet. -/
def step (s : InitialCrypto) : InitialCall → Option InitialCrypto
  | .write p => some { s with stream := s.stream.write p, written := s.written ++ p }
  | .packCoalescedPacket u onlyAck maxSize =>
    let (u', res) := (s.packer u).packCoalescedPacket onlyAck maxSize
    if u.uSpec.frameBuilder.Supported ∧ panics res = false then some (s.produce u' res) else none
  | .maybePackPTOProbePacket u maxSize =>
    let (u', res) := (s.packer u).maybePackPTOProbePacket .initial maxSize
    if u.uSpec.frameBuilder.Supported ∧ panics res = false then some (s.produce u' res) else none
  | .addPing => some { s with queue := s.queue.add .ping }
  | .onLost f =>
    if f ∈ s.sent then
      some { s with queue := s.queue.add f, inFlight := s.inFlight.erase f }
    else none
  | .onAcked f =>
    if f ∈ s.sent then
      some { s with inFlight := s.inFlight.erase f, acked := s.acked ++ [f] }
    else none

def machine : Machine InitialCrypto InitialCall := Machine.ofStep new step

/-! ## Every step conserves -/

/-- What every reachable state has. -/
structure Conserved (s : InitialCrypto) : Prop where
  holds : Holds s.written s.stream s.queue
  faithful : ∀ q ∈ s.packets, Faithful s.written q.frames q.plaintext
  accounted : ∀ o < s.written.length, Covered (waiting s.stream s.queue) o ∨
    Covered (cryptos s.inFlight) o ∨ Covered (cryptos s.acked) o

theorem conserved_new : Conserved new := by
  refine ⟨⟨fun c hc => ?_, rfl, nofun⟩, forall_mem_nil _, nofun⟩
  rw [mem_singleton.mp (show c ∈ [⟨0, []⟩] from hc)]
  intro i b hb
  cases hb

section Steps

variable {s : InitialCrypto} {f : OutgoingFrame}

variable {S : List UInt8}

theorem faithful_append {plaintext : List UInt8} {frames : List OutgoingFrame}
    (h : Faithful S frames plaintext) (p : List UInt8) : Faithful (S ++ p) frames plaintext := by
  obtain ⟨fs, hreads, hcarries, hcovered⟩ := h.wire
  exact ⟨h.plain, fun c hc => carries_append (h.recorded c hc) p, fs, hreads,
    fun w hw => carries_append (hcarries w hw) p, hcovered⟩

/-- The rest of the stream is the end of `S`, and goes on with what is written. -/
theorem carries_write {buf p : List UInt8} {offset : Nat}
    (h : CryptoFrame.Carries S ⟨offset, buf⟩) (hstop : offset + buf.length = S.length) :
    CryptoFrame.Carries (S ++ p) ⟨offset, buf ++ p⟩ := by
  intro i b hb
  have hb : (buf ++ p)[i]? = some b := hb
  show (S ++ p)[offset + i]? = some b
  by_cases hlt : i < buf.length
  · rw [List.getElem?_append_left hlt] at hb
    exact carries_append h p i b hb
  · have hle : buf.length ≤ i := Nat.le_of_not_lt hlt
    rw [List.getElem?_append_right hle] at hb
    rw [List.getElem?_append_right (by omega), ← hb]
    congr 1
    omega

theorem Conserved.write (h : Conserved s) (p : List UInt8) :
    Conserved { s with stream := s.stream.write p, written := s.written ++ p } := by
  obtain ⟨hbuf, hqueue⟩ := forall_mem_cons.mp h.holds.carries
  have hstop := h.holds.stop_eq
  refine ⟨⟨?_, ?_, h.holds.frames⟩, fun q hq => faithful_append (h.faithful q hq) p, ?_⟩
  · exact forall_mem_cons.mpr
      ⟨carries_write hbuf hstop, fun c hc => carries_append (hqueue c hc) p⟩
  · show s.stream.writeOffset + (s.stream.writeBuf ++ p).length = (s.written ++ p).length
    rw [length_append, length_append]
    omega
  · intro o ho
    have ho : o < s.written.length + p.length := by
      rwa [length_append] at ho
    by_cases hold : o < s.written.length
    · rcases h.accounted o hold with hwait | hrest
      · refine .inl ?_
        rw [waiting, covered_cons] at hwait ⊢
        refine hwait.imp_left fun hin => ⟨hin.1, hin.2.trans_le ?_⟩
        show s.stream.writeOffset + s.stream.writeBuf.length ≤
          s.stream.writeOffset + (s.stream.writeBuf ++ p).length
        rw [length_append]
        omega
      · exact .inr hrest
    · refine .inl ⟨_, mem_cons_self, ?_⟩
      show s.stream.writeOffset ≤ o ∧ o < s.stream.writeOffset + (s.stream.writeBuf ++ p).length
      rw [length_append]
      omega

variable {res : Except PackFailure (Option CoalescedPacket)}

theorem Conserved.produce (h : Conserved s) {u u' : UPacketPacker}
    (hp : Produces s.written (s.packer u) u' res) : Conserved (s.produce u' res) := by
  refine ⟨hp.holds, forall_mem_append.mpr ⟨h.faithful, hp.faithful⟩, fun o ho => ?_⟩
  show _ ∨ Covered (cryptos (s.inFlight ++ _)) o ∨ _
  rw [cryptos_append, covered_append]
  rcases h.accounted o ho with hwait | hflight | hack
  · rcases hp.covered o hwait with hwait | ⟨q, hq, hcovered⟩
    · exact .inl hwait
    · obtain ⟨c, hc, hco⟩ := hcovered
      obtain ⟨f, hf, hfc⟩ := mem_filterMap.mp hc
      exact .inr (.inl (.inr ⟨c, mem_filterMap.mpr ⟨f, mem_flatMap.mpr ⟨q, hq, hf⟩, hfc⟩, hco⟩))
  · exact .inr (.inl (.inl hflight))
  · exact .inr (.inr hack)

variable {o : Nat}

/-- A frame that is taken out covers what the others leave open. -/
theorem covered_erase {fs : List OutgoingFrame} (f : OutgoingFrame)
    (h : Covered (cryptos fs) o) : Covered (cryptos (fs.erase f)) o ∨ Covered (cryptos [f]) o := by
  by_cases hf : f ∈ fs
  · have hperm := (perm_cons_erase hf).filterMap OutgoingFrame.crypto?
    have h : Covered (cryptos (f :: fs.erase f)) o := (covered_perm hperm).mp h
    rw [cryptos_cons, covered_append] at h
    exact h.symm
  · rw [erase_of_not_mem hf]
    exact .inl h

variable {queue : LevelQueue}

theorem holds_add {stream : CryptoStream}
    (h : Holds S stream queue) (hplain : f = .ping ∨ ∃ c, f = .crypto c)
    (hf : ∀ c ∈ cryptos [f], c.Carries S) : Holds S stream (queue.add f) := by
  obtain ⟨hbuf, hq⟩ := forall_mem_cons.mp h.carries
  rcases hplain with rfl | ⟨c, rfl⟩
  · refine ⟨h.carries, h.stop_eq, forall_mem_append.mpr ⟨h.frames, ?_⟩⟩
    exact forall_mem_singleton.mpr rfl
  · refine ⟨forall_mem_cons.mpr ⟨hbuf, forall_mem_append.mpr ⟨hq, hf⟩⟩, h.stop_eq, h.frames⟩

theorem covered_add :
    Covered (queue.add f).cryptoData o ↔ Covered queue.cryptoData o ∨ Covered (cryptos [f]) o := by
  cases f with
  | crypto c => exact covered_append
  | ping | other bytes => exact (or_iff_left covered_nil).symm

/-- What an earlier packet has recorded. -/
theorem Conserved.sent_spec (h : Conserved s) (hf : f ∈ s.sent) :
    (f = .ping ∨ ∃ c, f = .crypto c) ∧ ∀ c ∈ cryptos [f], c.Carries s.written := by
  obtain ⟨q, hq, hf⟩ := mem_flatMap.mp hf
  have hfaithful := h.faithful q hq
  refine ⟨hfaithful.plain f hf, fun c hc => hfaithful.recorded c ?_⟩
  obtain ⟨g, hg, hgc⟩ := mem_filterMap.mp hc
  rw [mem_singleton.mp hg] at hgc
  exact mem_filterMap.mpr ⟨f, hf, hgc⟩

theorem Conserved.addPing (h : Conserved s) : Conserved { s with queue := s.queue.add .ping } :=
  { h with holds := holds_add h.holds (.inl rfl) nofun }

theorem Conserved.onLost (h : Conserved s) (hf : f ∈ s.sent) :
    Conserved { s with queue := s.queue.add f, inFlight := s.inFlight.erase f } := by
  obtain ⟨hplain, hcarries⟩ := h.sent_spec hf
  refine ⟨holds_add h.holds hplain hcarries, h.faithful, fun o ho => ?_⟩
  show Covered (_ :: (s.queue.add f).cryptoData) o ∨ Covered (cryptos (s.inFlight.erase f)) o ∨ _
  rw [covered_cons, covered_add]
  rcases h.accounted o ho with hwait | hflight | hack
  · rw [waiting, covered_cons] at hwait
    exact .inl (hwait.imp_right .inl)
  · rcases covered_erase f hflight with hflight | hlost
    · exact .inr (.inl hflight)
    · exact .inl (.inr (.inr hlost))
  · exact .inr (.inr hack)

theorem Conserved.onAcked (h : Conserved s) (f : OutgoingFrame) :
    Conserved { s with inFlight := s.inFlight.erase f, acked := s.acked ++ [f] } := by
  refine ⟨h.holds, h.faithful, fun o ho => ?_⟩
  show _ ∨ Covered (cryptos (s.inFlight.erase f)) o ∨ Covered (cryptos (s.acked ++ [f])) o
  rw [cryptos_append, covered_append]
  rcases h.accounted o ho with hwait | hflight | hack
  · exact .inl hwait
  · rcases covered_erase f hflight with hflight | hack
    · exact .inr (.inl hflight)
    · exact .inr (.inr (.inr hack))
  · exact .inr (.inr (.inl hack))

theorem not_panics (h : panics res = false) : ∀ e, res = .error e → ¬ e.Panics := by
  rintro e rfl
  exact of_decide_eq_false h

/-- **One call conserves the crypto data.** -/
theorem Conserved.step (h : Conserved s) {call : InitialCall} {s' : InitialCrypto}
    (hstep : s.step call = some s') : Conserved s' := by
  cases call with
  | write p =>
    cases hstep
    exact h.write p
  | packCoalescedPacket u onlyAck maxSize =>
    simp only [InitialCrypto.step] at hstep
    split_ifs at hstep with hok
    cases hstep
    exact h.produce (packCoalescedPacket_produces (u := s.packer u) hok.1 h.holds
      (not_panics hok.2))
  | maybePackPTOProbePacket u maxSize =>
    simp only [InitialCrypto.step] at hstep
    split_ifs at hstep with hok
    cases hstep
    exact h.produce (maybePackPTOProbePacket_produces (u := s.packer u) hok.1 h.holds
      (not_panics hok.2))
  | addPing =>
    cases hstep
    exact h.addPing
  | onLost f =>
    simp only [InitialCrypto.step] at hstep
    split_ifs at hstep with hf
    cases hstep
    exact h.onLost hf
  | onAcked f =>
    simp only [InitialCrypto.step] at hstep
    split_ifs at hstep
    cases hstep
    exact h.onAcked f

end Steps

/-! ## Every run conserves -/

/-- **The Initial crypto data is conserved.**  After any calls, with any losses and
acknowledgements of earlier frames: a receiver reads from every Initial packet CRYPTO frames
that carry the bytes that were written, at the offsets that the recorded frames cover; and
every offset that was written is in the stream, in the queue, in flight or acknowledged. -/
theorem initialCrypto_conserved {calls : List InitialCall} {s : InitialCrypto}
    (hrun : machine.Run calls s) : (∀ q ∈ s.packets, ∃ fs, Frame.parseAll q.plaintext = some fs ∧
      (∀ w ∈ fs.filterMap Frame.crypto?, w.Carries s.written) ∧
      ∀ o, Covered (fs.filterMap Frame.crypto?) o ↔ Covered (cryptos q.frames) o) ∧
    ∀ o < s.written.length, CryptoFrame.Covers ⟨s.stream.writeOffset, s.stream.writeBuf⟩ o ∨
      Covered s.queue.cryptoData o ∨ Covered (cryptos s.inFlight) o ∨
      Covered (cryptos s.acked) o := by
  have h : Conserved s := by
    refine Machine.Run.stable ?_ (fun s call s' h hstep => h.step hstep) hrun
    rintro s rfl
    exact conserved_new
  refine ⟨fun q hq => ?_, fun o ho => ?_⟩
  · obtain ⟨fs, hreads, hcarries, hcovered⟩ := (h.faithful q hq).wire
    exact ⟨fs, hreads.parseAll_eq, hcarries, hcovered⟩
  · have haccounted := h.accounted o ho
    rwa [waiting, covered_cons, or_assoc] at haccounted

/-- Three bytes are sent, lost, and sent again in a probe packet. -/
def lostAndProbed : List InitialCall :=
  [.write [7, 8, 9], .packCoalescedPacket threeBytesClient false 200,
    .onLost (.crypto ⟨0, [7, 8, 9]⟩), .maybePackPTOProbePacket threeBytesClient 200]

theorem initialCrypto_conserved_lostAndProbed :
    ∃ s, machine.Run lostAndProbed s ∧ s.packets.length = 2 ∧
      ∀ o < 3, Covered (cryptos s.inFlight) o := by
  have hrun : ∃ s, machine.Run lostAndProbed s ∧ s.packets.length = 2 ∧ s.written.length = 3 ∧
      s.stream.writeBuf = [] ∧ s.queue.cryptoData = [] ∧ s.acked = [] :=
    ⟨_, Machine.run_ofStep_iff.mpr rfl, rfl, rfl, rfl, rfl, rfl⟩
  obtain ⟨s, hrun, hpackets, hwritten, hbuf, hq, hack⟩ := hrun
  refine ⟨s, hrun, hpackets, fun o ho => ?_⟩
  have haccounted := (initialCrypto_conserved hrun).2 o (by rwa [hwritten])
  rw [hbuf, hq, hack] at haccounted
  rcases haccounted with ⟨hle, hlt⟩ | hnil | hflight | hnil
  · exact absurd (hle.trans_lt hlt) (Nat.lt_irrefl _)
  · exact absurd hnil covered_nil
  · exact hflight
  · exact absurd hnil covered_nil

end InitialCrypto

end UQuic
