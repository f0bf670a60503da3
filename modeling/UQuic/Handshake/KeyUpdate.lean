/-
# `UQuic.Handshake.KeyUpdate` — key updates between two endpoints

Two `updatableAEAD`s with matching secrets, and a network that loses, duplicates and
reorders packets but makes none up.  An endpoint asks for the key phase before it seals,
counts its packets upwards, and acknowledges what it has opened; of a packet it has just
opened it hands the acknowledgement to `SetLargestAcked`.

    what an endpoint knows                        of the other endpoint
    it opened a packet of phase k                 it has sent in phase k
    a packet it sent in phase k is acknowledged   it has opened in phase k, and then sent in
                                                  phase k or later

The second line is why a receiver can tell the next phase from the previous one by a
single bit: the peer updates to phase k + 1 by itself only when the receiver has already
opened and sent packets in phase k.

## What is proved

`keyUpdates_safe`: along every run there is no KEY_UPDATE_ERROR, the phases differ by at
most one, and a packet of the current, the next or (as long as its key is there) the
previous phase is opened.

## How

`Sender`, `Receiver` and `Lead` say what holds of an endpoint's packets, of what it has
opened, and of the two phases; they speak of the keys only through their `Progress`.
-/
import UQuic.Handshake.UpdatableAEAD

namespace UQuic

open List Option

def Perspective.opposite : Perspective → Perspective
  | .client => .server
  | .server => .client

@[simp] theorem Perspective.opposite_opposite (x : Perspective) : x.opposite.opposite = x := by
  cases x <;> rfl

theorem Perspective.eq_or_eq_opposite (x y : Perspective) : x = y ∨ x = y.opposite := by
  cases x <;> cases y <;> simp [Perspective.opposite]

namespace Handshake

open UpdatableAEAD (Progress Opening)

/-! ## Endpoints -/

/-- A packet with a short header. -/
structure Packet (suite : CipherSuite) where
  pn : Int
  kp : Bool
  ad : List UInt8
  src : suite.Sealed
  /-- The phase it was sealed in, of which the packet has only the bit. -/
  keyPhase : Nat
  /-- The payload before it was sealed. -/
  text : List UInt8
  /-- The largest packet number that the payload acknowledges. -/
  ack : Option Int

/-- An endpoint with its keys, the packets it has sent and those it has opened. -/
structure Endpoint (suite : CipherSuite) where
  aead : UpdatableAEAD suite
  sent : List (Packet suite)
  opened : List (Packet suite)

variable {suite : CipherSuite}

namespace Endpoint

/-- The packer asks for the key phase and then seals. -/
def send (e : Endpoint suite) (c : KeyUpdateIntervals) (pn : Int) (text ad : List UInt8)
    (ack : Option Int) : Endpoint suite :=
  let (aead, kp) := e.aead.keyPhaseToSend c
  let (sealing, src) := aead.sealPayload text pn ad
  { e with aead := sealing, sent := ⟨pn, kp, ad, src, aead.keyPhase, text, ack⟩ :: e.sent }

/-- The results of `Open` and of `SetLargestAcked`. -/
structure Received where
  opened : Except OpenError (List UInt8)
  acked : Except KeyUpdateError Unit

/-- The acknowledgement of a packet that was opened. -/
def handleAck (e : Endpoint suite) : Option Int → Endpoint suite × Except KeyUpdateError Unit
  | none => (e, .ok ())
  | some n =>
    match e.aead.setLargestAcked n with
    | .error k => (e, .error k)
    | .ok aead => ({ e with aead := aead }, .ok ())

/-- A packet arrives.  An acknowledgement that is not `new` is not looked at. -/
def receive (e : Endpoint suite) (m : Packet suite) (rcvTime pto : Int) (new : Bool) :
    Endpoint suite × Received :=
  match e.aead.openPayload m.src rcvTime pto m.pn m.kp m.ad with
  | (aead, .error k) => ({ e with aead := aead }, ⟨.error k, .ok ()⟩)
  | (aead, .ok text) =>
    let e := { e with aead := aead, opened := m :: e.opened }
    let (e, acked) := e.handleAck (if new then m.ack else none)
    (e, ⟨.ok text, acked⟩)

end Endpoint

/-! ## The two endpoints -/

/-- Both ends of a connection. -/
structure System (suite : CipherSuite) where
  client : Endpoint suite
  server : Endpoint suite

namespace System

def get (s : System suite) : Perspective → Endpoint suite
  | .client => s.client
  | .server => s.server

def set (s : System suite) (e : Endpoint suite) : Perspective → System suite
  | .client => { s with client := e }
  | .server => { s with server := e }

@[simp] theorem get_set_self (s : System suite) (e : Endpoint suite) (x : Perspective) :
    (s.set e x).get x = e := by
  cases x <;> rfl

@[simp] theorem get_set_opposite (s : System suite) (e : Endpoint suite) (x : Perspective) :
    (s.set e x).get x.opposite = s.get x.opposite := by
  cases x <;> rfl

/-- Nothing was sent.  `secret x` is the secret that `x` sends with. -/
def new (suite : CipherSuite) (limit : Nat) (secret : Perspective → suite.Secret) :
    System suite where
  client := ⟨.new suite limit (secret .server) (secret .client), [], []⟩
  server := ⟨.new suite limit (secret .client) (secret .server), [], []⟩

/-- What can happen. -/
inductive Event
  | setHandshakeConfirmed (x : Perspective)
  | send (x : Perspective) (pn : Int) (text ad : List UInt8) (ack : Option Int)
  /-- Packet `pn` reaches `x`; packets that are lost never do, others may do so again. -/
  | receive (x : Perspective) (pn rcvTime pto : Int) (new : Bool)

/-- Packet numbers increase, and only what was opened is acknowledged. -/
def Permitted (s : System suite) : Event → Prop
  | .send x pn _ _ ack =>
    0 ≤ pn ∧ (∀ m ∈ (s.get x).sent, m.pn < pn) ∧ ∀ n ∈ ack, ∃ m ∈ (s.get x).opened, m.pn = n
  | _ => True

instance (s : System suite) (e : Event) : Decidable (s.Permitted e) :=
  match e with
  | .send .. => inferInstanceAs (Decidable (_ ∧ _ ∧ _))
  | .setHandshakeConfirmed _ | .receive .. => inferInstanceAs (Decidable True)

/-- One step; a packet that nobody sent does not arrive. -/
def step (c : KeyUpdateIntervals) (s : System suite) : Event → Option (System suite)
  | .setHandshakeConfirmed x =>
    let e := s.get x
    some (s.set { e with aead := e.aead.setHandshakeConfirmed } x)
  | .send x pn text ad ack => some (s.set ((s.get x).send c pn text ad ack) x)
  | .receive x pn rcvTime pto new =>
    ((s.get x.opposite).sent.find? fun m => m.pn == pn).map fun m =>
      s.set ((s.get x).receive m rcvTime pto new).1 x

def machine (c : KeyUpdateIntervals) (suite : CipherSuite) (limit : Nat)
    (secret : Perspective → suite.Secret) : Machine (System suite) Event :=
  (Machine.ofStep (new suite limit secret) (step c)).guard Permitted

end System

/-! ## What holds of one end -/

/-- A packet that was sealed in its phase, on the chain of keys after `send`. -/
structure Packet.Genuine (m : Packet suite) (send : suite.Secret) : Prop where
  src_eq : m.src = suite.sealWith (suite.keyOf send m.keyPhase) m.pn m.text m.ad
  kp_eq : m.kp = keyPhaseBit m.keyPhase
  pn_nonneg : 0 ≤ m.pn

/-- What holds of the packets that an endpoint has sent. -/
structure Sender (send : suite.Secret) (g : Progress) (sent opened : List (Packet suite)) :
    Prop where
  genuine : ∀ m ∈ sent, m.Genuine send
  le : ∀ m ∈ sent, m.keyPhase ≤ g.keyPhase
  mono : ∀ m ∈ sent, ∀ m' ∈ sent, m.keyPhase < m'.keyPhase → m.pn < m'.pn
  lt_of_none : g.firstSent = invalidPacketNumber → ∀ m ∈ sent, m.keyPhase < g.keyPhase
  eq_of_le : g.firstSent ≠ invalidPacketNumber →
    ∀ m ∈ sent, g.firstSent ≤ m.pn → m.keyPhase = g.keyPhase
  /-- An acknowledgement is not sent in an earlier phase than what it acknowledges. -/
  ack_opened : ∀ r ∈ sent, ∀ n ∈ r.ack, ∃ m ∈ opened, m.pn = n ∧ m.keyPhase ≤ r.keyPhase

/-- What holds of the packets of the peer that an endpoint has opened. -/
structure Receiver (g : Progress) (opened peerSent : List (Packet suite)) : Prop where
  sent : ∀ m ∈ opened, m ∈ peerSent
  le : ∀ m ∈ opened, m.keyPhase ≤ g.keyPhase
  lt_of_none : g.firstRcvd = invalidPacketNumber → ∀ m ∈ opened, m.keyPhase < g.keyPhase
  first : g.firstRcvd ≠ invalidPacketNumber →
    ∃ m ∈ opened, m.pn = g.firstRcvd ∧ m.keyPhase = g.keyPhase
  acked : g.largestAcked ≠ invalidPacketNumber → ∃ r ∈ peerSent, r.ack = some g.largestAcked

/-- An endpoint is one phase ahead at most, and then the peer, unless it is in its first
phase, has opened and sent packets in its own. -/
structure Lead (g p : Progress) : Prop where
  le : g.keyPhase ≤ p.keyPhase + 1
  known : g.keyPhase = p.keyPhase + 1 → 0 < p.keyPhase →
    p.firstRcvd ≠ invalidPacketNumber ∧ p.firstSent ≠ invalidPacketNumber

section Steps

variable {send : suite.Secret} {g g' p : Progress} {sent opened peerSent : List (Packet suite)}
  {m : Packet suite}

section

variable (h : Sender send g sent opened)

include h

theorem Sender.sends (hle : ∀ m ∈ opened, m.keyPhase ≤ g.keyPhase)
    (hm : m.Genuine send) (hphase : m.keyPhase = g.keyPhase) (hpn : ∀ m' ∈ sent, m'.pn < m.pn)
    (hack : ∀ n ∈ m.ack, ∃ m' ∈ opened, m'.pn = n) :
    Sender send { g with
        firstSent := if g.firstSent = invalidPacketNumber then m.pn else g.firstSent }
      (m :: sent) opened where
  genuine := forall_mem_cons.mpr ⟨hm, h.genuine⟩
  le := forall_mem_cons.mpr ⟨hphase.le, h.le⟩
  mono := by
    intro a ha b hb hlt
    rcases mem_cons.mp ha with rfl | ha'
    · -- nothing was sent in a later phase
      rcases mem_cons.mp hb with rfl | hb'
      · exact absurd hlt (Nat.lt_irrefl _)
      · exact absurd (h.le b hb') (by omega)
    · rcases mem_cons.mp hb with rfl | hb'
      · exact hpn a ha'
      · exact h.mono a ha' b hb' hlt
  lt_of_none := by
    intro hno
    have hnonneg := hm.pn_nonneg
    dsimp only at hno
    split at hno
    · rw [invalidPacketNumber] at hno
      omega
    · exact absurd hno (by assumption)
  eq_of_le := by
    intro _ a ha hfirst
    dsimp only at hfirst
    rcases mem_cons.mp ha with rfl | ha
    · exact hphase
    · split at hfirst
      · exact absurd (hpn a ha) (Int.not_lt.mpr hfirst)
      · exact h.eq_of_le (by assumption) a ha hfirst
  ack_opened := by
    intro r hr n hn
    rcases mem_cons.mp hr with rfl | hr
    · obtain ⟨m', hm', hn⟩ := hack n hn
      exact ⟨m', hm', hn, hphase ▸ hle m' hm'⟩
    · exact h.ack_opened r hr n hn

theorem Sender.roll (hphase : g'.keyPhase = g.keyPhase + 1)
    (hsent : g'.firstSent = invalidPacketNumber) : Sender send g' sent opened where
  genuine := h.genuine
  le := fun m hm => hphase ▸ Nat.le_succ_of_le (h.le m hm)
  mono := h.mono
  lt_of_none := fun _ m hm => hphase ▸ Nat.lt_succ_of_le (h.le m hm)
  eq_of_le := fun hne => absurd hsent hne
  ack_opened := h.ack_opened

theorem Sender.congr (hphase : g'.keyPhase = g.keyPhase)
    (hsent : g'.firstSent = g.firstSent) : Sender send g' sent opened where
  genuine := h.genuine
  le := hphase ▸ h.le
  mono := h.mono
  lt_of_none := by
    rw [hphase, hsent]
    exact h.lt_of_none
  eq_of_le := by
    rw [hphase, hsent]
    exact h.eq_of_le
  ack_opened := h.ack_opened

theorem Sender.opens (m : Packet suite) : Sender send g sent (m :: opened) where
  genuine := h.genuine
  le := h.le
  mono := h.mono
  lt_of_none := h.lt_of_none
  eq_of_le := h.eq_of_le
  ack_opened := by
    intro r hr n hn
    obtain ⟨m', hm', hack⟩ := h.ack_opened r hr n hn
    exact ⟨m', mem_cons_of_mem _ hm', hack⟩

end

section

variable (h : Receiver g opened peerSent)

include h

/-- The keys are updated before a packet of the new phase is opened. -/
theorem Receiver.roll :
    Receiver ⟨g.keyPhase + 1, g.largestAcked, invalidPacketNumber, invalidPacketNumber⟩ opened
      peerSent where
  sent := h.sent
  le := fun m hm => Nat.le_succ_of_le (h.le m hm)
  lt_of_none := fun _ m hm => Nat.lt_succ_of_le (h.le m hm)
  first := fun hne => absurd rfl hne
  acked := h.acked

theorem Receiver.current (hm : m ∈ peerSent)
    (hphase : m.keyPhase = g.keyPhase) (hpn : 0 ≤ m.pn) (firstSent : Int) :
    Receiver ⟨g.keyPhase, g.largestAcked,
      if g.firstRcvd = invalidPacketNumber then m.pn else g.firstRcvd, firstSent⟩ (m :: opened)
      peerSent where
  sent := forall_mem_cons.mpr ⟨hm, h.sent⟩
  le := forall_mem_cons.mpr ⟨hphase.le, h.le⟩
  lt_of_none := by
    intro hno
    dsimp only at hno
    split at hno
    · rw [invalidPacketNumber] at hno
      omega
    · exact absurd hno (by assumption)
  first := by
    intro _
    dsimp only
    split
    · exact ⟨m, mem_cons_self, rfl, hphase⟩
    · obtain ⟨m', hm', hfirst⟩ := h.first (by assumption)
      exact ⟨m', mem_cons_of_mem _ hm', hfirst⟩
  acked := h.acked

theorem Receiver.previous (hm : m ∈ peerSent)
    (hphase : m.keyPhase + 1 = g.keyPhase) : Receiver g (m :: opened) peerSent where
  sent := forall_mem_cons.mpr ⟨hm, h.sent⟩
  le := forall_mem_cons.mpr ⟨by omega, h.le⟩
  lt_of_none := fun hno => forall_mem_cons.mpr ⟨by omega, h.lt_of_none hno⟩
  first := by
    intro hne
    obtain ⟨m', hm', hfirst⟩ := h.first hne
    exact ⟨m', mem_cons_of_mem _ hm', hfirst⟩
  acked := h.acked

theorem Receiver.ack {n : Int} {r : Packet suite}
    (hr : r ∈ peerSent) (hn : r.ack = some n) :
    Receiver { g with largestAcked := n } opened peerSent where
  sent := h.sent
  le := h.le
  lt_of_none := h.lt_of_none
  first := h.first
  acked := fun _ => ⟨r, hr, hn⟩

theorem Receiver.peer_sends (m : Packet suite) : Receiver g opened (m :: peerSent) where
  sent := fun m' hm' => mem_cons_of_mem _ (h.sent m' hm')
  le := h.le
  lt_of_none := h.lt_of_none
  first := h.first
  acked := by
    intro hne
    obtain ⟨r, hr, hn⟩ := h.acked hne
    exact ⟨r, mem_cons_of_mem _ hr, hn⟩

end

/-- **An endpoint updates its keys by itself only if the peer has been in the phase before**:
what was acknowledged to it, the peer has opened, and the acknowledgement the peer has
sent. -/
theorem Lead.of_allowed {peerOpened : List (Packet suite)} {peerSend : suite.Secret}
    (hsender : Sender send g sent opened) (hreceiver : Receiver g opened peerSent)
    (hpeer : Sender peerSend p peerSent peerOpened) (hpeer' : Receiver p peerOpened sent)
    (hallowed : g.keyPhase = 0 ∨ g.firstSent ≠ invalidPacketNumber ∧
      g.largestAcked ≠ invalidPacketNumber ∧ g.firstSent ≤ g.largestAcked)
    (hphase : g'.keyPhase = g.keyPhase + 1) : Lead g' p := by
  rcases hallowed with hz | ⟨hfirst, hack, hle⟩
  · refine ⟨by omega, fun heq hpos => ?_⟩
    omega
  · obtain ⟨r, hr, hn⟩ := hreceiver.acked hack
    obtain ⟨m, hm, hpn, hmr⟩ := hpeer.ack_opened r hr _ hn
    have hm_phase := hsender.eq_of_le hfirst m (hpeer'.sent m hm) (hpn ▸ hle)
    have hm_le := hpeer'.le m hm
    have hr_le := hpeer.le r hr
    refine ⟨by omega, fun heq _ => ⟨fun hno => ?_, fun hno => ?_⟩⟩
    · have := hpeer'.lt_of_none hno m hm
      omega
    · have := hpeer.lt_of_none hno r hr
      omega

/-- The phase of the first end counts, and what the other end has not yet done. -/
theorem Lead.mono {p' : Progress} (h : Lead g p) (hg : g'.keyPhase = g.keyPhase)
    (hp : p'.keyPhase = p.keyPhase)
    (hrcvd : p.firstRcvd ≠ invalidPacketNumber → p'.firstRcvd ≠ invalidPacketNumber)
    (hsent : p.firstSent ≠ invalidPacketNumber → p'.firstSent ≠ invalidPacketNumber) :
    Lead g' p' where
  le := by
    rw [hg, hp]
    exact h.le
  known := by
    rw [hg, hp]
    exact fun heq hpos => (h.known heq hpos).imp hrcvd hsent

/-- The end that was not ahead updates its keys. -/
theorem Lead.follow {p' : Progress} (h : Lead g p) (hp : p'.keyPhase = p.keyPhase + 1) :
    Lead g p' where
  le := by
    have := h.le
    omega
  known := by
    have := h.le
    intro heq
    omega

end Steps

/-! ## What holds of both ends -/

/-- What holds of an endpoint `e` with its peer `p`. -/
structure Half (rcv send : suite.Secret) (e p : Endpoint suite) : Prop where
  keyed : e.aead.Keyed rcv send
  sender : Sender send e.aead.progress e.sent e.opened
  receiver : Receiver e.aead.progress e.opened p.sent
  lead : Lead e.aead.progress p.aead.progress

/-- Both views of a connection. -/
structure Pair (rcv send : suite.Secret) (e p : Endpoint suite) : Prop where
  half : Half rcv send e p
  peer : Half send rcv p e

namespace Pair

variable {rcv send : suite.Secret} {e p : Endpoint suite} {aead : UpdatableAEAD suite}
  {m : Packet suite}

theorem symm (h : Pair rcv send e p) : Pair send rcv p e := ⟨h.peer, h.half⟩

/-- The keys change, but not their progress. -/
theorem of_progress (h : Pair rcv send e p) (hkeyed : aead.Keyed rcv send)
    (hprogress : aead.progress = e.aead.progress) : Pair rcv send { e with aead := aead } p where
  half := ⟨hkeyed, hprogress ▸ h.half.sender, hprogress ▸ h.half.receiver, hprogress ▸ h.half.lead⟩
  peer := { h.peer with lead := hprogress ▸ h.peer.lead }

theorem updateAllowed_iff : aead.updateAllowed = true ↔ aead.handshakeConfirmed = true ∧
      (aead.keyPhase = 0 ∨ aead.firstSentWithCurrentKey ≠ invalidPacketNumber ∧
        aead.largestAcked ≠ invalidPacketNumber ∧
        aead.firstSentWithCurrentKey ≤ aead.largestAcked) := by
  simp only [UpdatableAEAD.updateAllowed, Bool.and_eq_true, Bool.or_eq_true, beq_iff_eq,
    bne_iff_ne, decide_eq_true_eq, and_assoc]

variable (h : Pair rcv send e p)

include h

/-- An endpoint updates its keys by itself. -/
theorem roll (hallowed : e.aead.updateAllowed = true) :
    Pair rcv send { e with aead := e.aead.rollKeys } p where
  half := ⟨UpdatableAEAD.keyed_rollKeys h.half.keyed, h.half.sender.roll rfl rfl,
    h.half.receiver.roll, .of_allowed h.half.sender h.half.receiver h.peer.sender h.peer.receiver
      (updateAllowed_iff.mp hallowed).2 rfl⟩
  peer := { h.peer with lead := h.peer.lead.follow rfl }

theorem keyPhaseToSend (c : KeyUpdateIntervals) :
    Pair rcv send { e with aead := (e.aead.keyPhaseToSend c).1 } p := by
  rw [UpdatableAEAD.keyPhaseToSend]
  dsimp only
  split_ifs with hshould
  · rw [UpdatableAEAD.shouldInitiateKeyUpdate, Bool.and_eq_true] at hshould
    exact h.roll hshould.1
  · exact h

theorem sealPayload {pn : Int} {text ad : List UInt8} {ack : Option Int}
    (hnonneg : 0 ≤ pn) (hpn : ∀ m ∈ e.sent, m.pn < pn)
    (hack : ∀ n ∈ ack, ∃ m ∈ e.opened, m.pn = n) : Pair rcv send ⟨(e.aead.sealPayload text pn ad).1,
        ⟨pn, keyPhaseBit e.aead.keyPhase, ad, (e.aead.sealPayload text pn ad).2, e.aead.keyPhase,
          text, ack⟩ :: e.sent, e.opened⟩ p where
  half := by
    have hk := h.half.keyed
    refine ⟨⟨hk.1, hk.2, hk.3, hk.4, hk.5, hk.6, hk.7⟩, ?_, ?_, ?_⟩
    · let m : Packet suite := ⟨pn, keyPhaseBit e.aead.keyPhase, ad,
        (e.aead.sealPayload text pn ad).2, e.aead.keyPhase, text, ack⟩
      have hm : m.Genuine send :=
        ⟨congrArg (suite.sealWith · pn text ad) hk.sendAEAD_eq, rfl, hnonneg⟩
      exact h.half.sender.sends h.half.receiver.le hm rfl hpn hack
    · have hr := h.half.receiver
      exact { hr with }
    · exact h.half.lead.mono rfl rfl id id
  peer := by
    refine ⟨h.peer.keyed, h.peer.sender, h.peer.receiver.peer_sends _, ?_⟩
    refine h.peer.lead.mono rfl rfl id
      fun hsent : e.aead.firstSentWithCurrentKey ≠ invalidPacketNumber => ?_
    change (if e.aead.firstSentWithCurrentKey = invalidPacketNumber then pn
      else e.aead.firstSentWithCurrentKey) ≠ invalidPacketNumber
    rw [if_neg hsent]
    exact hsent

theorem sends (c : KeyUpdateIntervals) {pn : Int} (text ad : List UInt8)
    {ack : Option Int} (hnonneg : 0 ≤ pn) (hpn : ∀ m ∈ e.sent, m.pn < pn)
    (hack : ∀ n ∈ ack, ∃ m ∈ e.opened, m.pn = n) : Pair rcv send (e.send c pn text ad ack) p :=
  (h.keyPhaseToSend c).sealPayload hnonneg hpn hack

section

variable (hm : m ∈ p.sent)

include hm

/-- A packet of the phase that this end is already in is opened. -/
theorem opens_current (hkeyed : aead.Keyed rcv send) (hphase : m.keyPhase = e.aead.keyPhase)
    (hprogress : aead.progress = ⟨m.keyPhase, e.aead.largestAcked,
      if e.aead.firstRcvdWithCurrentKey = invalidPacketNumber then m.pn
      else e.aead.firstRcvdWithCurrentKey, e.aead.firstSentWithCurrentKey⟩) :
    Pair rcv send ⟨aead, e.sent, m :: e.opened⟩ p where
  half := by
    have hpn := (h.peer.sender.genuine m hm).pn_nonneg
    refine ⟨hkeyed, ?_, ?_, ?_⟩
    · rw [hprogress]
      refine Sender.opens ?_ m
      exact h.half.sender.congr hphase rfl
    · rw [hprogress, hphase]
      exact h.half.receiver.current hm hphase hpn _
    · rw [hprogress]
      exact h.half.lead.mono hphase rfl id id
  peer := by
    refine { h.peer with lead := ?_ }
    rw [hprogress]
    refine h.peer.lead.mono rfl hphase
      (fun hrcvd : e.aead.firstRcvdWithCurrentKey ≠ invalidPacketNumber => ?_) id
    rw [if_neg hrcvd]
    exact hrcvd

/-- A packet of the next phase is opened: this end updates its keys. -/
theorem opens_next (hkeyed : aead.Keyed rcv send) (hphase : m.keyPhase = e.aead.keyPhase + 1)
    (hprogress : aead.progress = ⟨m.keyPhase, e.aead.largestAcked, m.pn, invalidPacketNumber⟩) :
    Pair rcv send ⟨aead, e.sent, m :: e.opened⟩ p where
  half := by
    have hpn := (h.peer.sender.genuine m hm).pn_nonneg
    have hle := h.peer.sender.le m hm
    refine ⟨hkeyed, ?_, ?_, ?_⟩
    · rw [hprogress]
      exact (h.half.sender.roll hphase rfl).opens m
    · rw [hprogress, hphase]
      exact h.half.receiver.roll.current hm hphase hpn _
    · rw [hprogress]
      refine ⟨Nat.le_succ_of_le hle, fun heq => ?_⟩
      exact absurd heq (Nat.ne_of_lt (Nat.lt_succ_of_le hle))
  peer := by
    refine { h.peer with lead := ?_ }
    rw [hprogress]
    exact h.peer.lead.follow hphase

theorem opens_previous (hkeyed : aead.Keyed rcv send) (hphase : m.keyPhase + 1 = e.aead.keyPhase)
    (hprogress : aead.progress = e.aead.progress) :
    Pair rcv send ⟨aead, e.sent, m :: e.opened⟩ p where
  half := by
    refine ⟨hkeyed, ?_, ?_, ?_⟩
    · rw [hprogress]
      exact h.half.sender.opens m
    · rw [hprogress]
      exact h.half.receiver.previous hm hphase
    · rw [hprogress]
      exact h.half.lead
  peer := { h.peer with lead := hprogress ▸ h.peer.lead }

theorem acks {n : Int} (hn : m.ack = some n) :
    Pair rcv send { e with aead := { e.aead with largestAcked := n } } p where
  half := by
    have hk := h.half.keyed
    exact ⟨⟨hk.1, hk.2, hk.3, hk.4, hk.5, hk.6, hk.7⟩, h.half.sender.congr rfl rfl,
      h.half.receiver.ack hm hn, h.half.lead.mono rfl rfl id id⟩
  peer := { h.peer with lead := h.peer.lead.mono rfl rfl id id }

/-- What this end sent in its phase was not acknowledged in an earlier phase. -/
theorem le_of_ack {n : Int}
    (hn : m.ack = some n) (hsent : e.aead.firstSentWithCurrentKey ≠ invalidPacketNumber)
    (hle : e.aead.firstSentWithCurrentKey ≤ n) : e.aead.keyPhase ≤ m.keyPhase := by
  obtain ⟨m', hm', hpn, hphase⟩ := h.peer.sender.ack_opened m hm n hn
  have heq : m'.keyPhase = e.aead.keyPhase :=
    h.half.sender.eq_of_le hsent m' (h.peer.receiver.sent m' hm') (hpn ▸ hle)
  exact heq ▸ hphase

/-- A packet ahead of this end is ahead by one phase, and this end knows its own phase. -/
theorem known_of_ahead (hphase : m.keyPhase = e.aead.keyPhase + 1) (hpos : 0 < e.aead.keyPhase) :
    e.aead.firstRcvdWithCurrentKey ≠ invalidPacketNumber ∧
      e.aead.firstSentWithCurrentKey ≠ invalidPacketNumber := by
  have hle : m.keyPhase ≤ p.aead.keyPhase := h.peer.sender.le m hm
  have hlead : p.aead.keyPhase ≤ e.aead.keyPhase + 1 := h.peer.lead.le
  exact h.peer.lead.known (Nat.le_antisymm hlead (hphase ▸ hle)) hpos

/-- The acknowledgement in a packet that was just opened is noted without an error. -/
theorem handleAck (hok : e.aead.keyPhase ≤ m.keyPhase →
      e.aead.firstSentWithCurrentKey = invalidPacketNumber ∨ 0 < e.aead.numRcvdWithCurrentKey)
    (new : Bool) :
    let r := e.handleAck (if new then m.ack else none)
    Pair rcv send r.1 p ∧ r.2 = .ok () := by
  cases new with
  | false => exact ⟨h, rfl⟩
  | true =>
    cases hn : m.ack with
    | none => exact ⟨h, rfl⟩
    | some n =>
      have hset : e.aead.setLargestAcked n = .ok { e.aead with largestAcked := n } := by
        rw [UpdatableAEAD.setLargestAcked, if_neg]
        rintro ⟨hsent, hle, hnum⟩
        rcases hok (h.le_of_ack hm hn hsent hle) with hno | hpos
        · exact hsent hno
        · omega
      simp only [if_true, Endpoint.handleAck, hset]
      exact ⟨h.acks hm hn, trivial⟩

end

/-- **A genuine packet causes no KEY_UPDATE_ERROR**, and what holds of the two ends still
does. -/
theorem receives (hideal : suite.Ideal rcv)
    (hm : m ∈ p.sent) (rcvTime pto : Int) (new : Bool) :
    let r := e.receive m rcvTime pto new
    Pair rcv send r.1 p ∧ (∀ k, r.2.opened ≠ .error (.keyUpdate k)) ∧ r.2.acked = .ok () := by
  have hgenuine := h.peer.sender.genuine m hm
  obtain ⟨hkeyed, hopen⟩ := UpdatableAEAD.openPayload_opening hideal h.half.keyed m.keyPhase m.text
    m.ad rcvTime pto m.pn m.kp
  rw [← hgenuine.src_eq] at hkeyed hopen
  rw [Endpoint.receive]
  generalize e.aead.openPayload m.src rcvTime pto m.pn m.kp m.ad = r at hkeyed hopen
  obtain ⟨aead, r⟩ := r
  dsimp only at hkeyed hopen ⊢
  cases hopen with
  | failed he hprogress =>
    refine ⟨h.of_progress hkeyed hprogress, fun k hk => ?_, rfl⟩
    exact he k (Except.error.inj hk)
  | tooQuickly hphase hpos hsent _ => exact absurd hsent (h.known_of_ahead hm hphase hpos).2
  | previous hphase hprogress =>
    have h' := h.opens_previous hm hkeyed hphase hprogress
    have heq : aead.keyPhase = e.aead.keyPhase := congrArg Progress.keyPhase hprogress
    obtain ⟨hpair, hack⟩ := h'.handleAck hm (fun hle => absurd hle (by
      dsimp only
      omega)) new
    exact ⟨hpair, nofun, hack⟩
  | next hphase hprogress =>
    have h' := h.opens_next hm hkeyed hphase hprogress
    obtain ⟨hpair, hack⟩ :=
      h'.handleAck hm (fun _ => .inl (congrArg Progress.firstSent hprogress)) new
    exact ⟨hpair, nofun, hack⟩
  | current hphase hnum hprogress =>
    have h' := h.opens_current hm hkeyed hphase hprogress
    obtain ⟨hpair, hack⟩ := h'.handleAck hm (fun _ => .inr hnum) new
    exact ⟨hpair, nofun, hack⟩

/-- A packet of a phase whose key is at hand is opened. -/
theorem opens (hm : m ∈ p.sent) {rcvTime : Int}
    (hphase : m.keyPhase = e.aead.keyPhase ∨ m.keyPhase = e.aead.keyPhase + 1 ∨
      m.keyPhase + 1 = e.aead.keyPhase ∧ (e.aead.dropExpired rcvTime).prevRcvAEAD ≠ none) :
    e.aead.Opens m.keyPhase m.pn rcvTime := by
  have hgenuine := h.peer.sender.genuine m hm
  -- the first packet that was opened in this phase is one of the peer's, and comes before the
  -- packets of the next phase and after those of the previous one
  have hfirst := h.half.receiver.first
  rcases hphase with hphase | hphase | ⟨hphase, hkey⟩
  · exact .current hphase
  · have hknown := h.known_of_ahead hm hphase
    refine .next hphase ?_ fun hquick => (hknown hquick.1).2 hquick.2
    rintro (⟨hpos, hno⟩ | hlt)
    · exact (hknown hpos).1 hno
    · by_cases hno : e.aead.firstRcvdWithCurrentKey = invalidPacketNumber
      · have hnonneg := hgenuine.pn_nonneg
        rw [hno, invalidPacketNumber] at hlt
        omega
      · obtain ⟨m', hm', hpn, hm'phase⟩ := hfirst hno
        have hm'phase : m'.keyPhase = e.aead.keyPhase := hm'phase
        have hpn : m'.pn = e.aead.firstRcvdWithCurrentKey := hpn
        have := h.peer.sender.mono m' (h.half.receiver.sent m' hm') m hm (by omega)
        omega
  · refine .previous hphase ?_ hkey
    by_cases hno : e.aead.firstRcvdWithCurrentKey = invalidPacketNumber
    · exact .inl ⟨by omega, hno⟩
    · obtain ⟨m', hm', hpn, hm'phase⟩ := hfirst hno
      have hm'phase : m'.keyPhase = e.aead.keyPhase := hm'phase
      have hlt := h.peer.sender.mono m hm m' (h.half.receiver.sent m' hm') (by omega)
      rw [hpn] at hlt
      exact .inr hlt

theorem receive_eq_ok (hideal : suite.Ideal rcv)
    (hm : m ∈ p.sent) {rcvTime : Int} (hopens : e.aead.Opens m.keyPhase m.pn rcvTime) (pto : Int)
    (new : Bool) : (e.receive m rcvTime pto new).2.opened = .ok m.text := by
  have hgenuine := h.peer.sender.genuine m hm
  have hopen := hopens.openPayload hideal h.half.keyed m.text m.ad pto
  rw [← hgenuine.src_eq, ← hgenuine.kp_eq] at hopen
  rw [Endpoint.receive]
  generalize e.aead.openPayload m.src rcvTime pto m.pn m.kp m.ad = r at hopen
  obtain ⟨aead, r⟩ := r
  dsimp only at hopen
  subst hopen
  rfl

end Pair

/-! ## Runs -/

namespace System

variable {secret : Perspective → suite.Secret} {s s' : System suite} {c : KeyUpdateIntervals}

def Invariant (secret : Perspective → suite.Secret) (s : System suite) : Prop :=
  ∀ x : Perspective, Pair (secret x.opposite) (secret x) (s.get x) (s.get x.opposite)

/-- A step of one end is enough to look at. -/
theorem Invariant.of_set {x : Perspective} {e : Endpoint suite}
    (h : Pair (secret x.opposite) (secret x) e (s.get x.opposite)) :
    Invariant secret (s.set e x) := by
  intro y
  rcases y.eq_or_eq_opposite x with rfl | rfl
  · rw [get_set_self, get_set_opposite]
    exact h
  · rw [Perspective.opposite_opposite, get_set_self, get_set_opposite]
    exact h.symm

theorem half_new (limit : Nat) (rcv send : suite.Secret) (p : UpdatableAEAD suite)
    (hp : p.keyPhase = 0) : Half rcv send ⟨.new suite limit rcv send, [], []⟩ ⟨p, [], []⟩ where
  keyed := UpdatableAEAD.keyed_new limit
  sender := ⟨nofun, nofun, nofun, fun _ => nofun, fun _ => nofun, nofun⟩
  receiver := ⟨nofun, nofun, fun _ => nofun, fun hne => absurd rfl hne, fun hne => absurd rfl hne⟩
  lead := ⟨Nat.zero_le _, fun _ hpos => absurd hp (Nat.ne_of_gt hpos)⟩

theorem Invariant.new (limit : Nat) : Invariant secret (new suite limit secret) := by
  intro x
  cases x with
  | client | server => exact ⟨half_new limit _ _ _ rfl, half_new limit _ _ _ rfl⟩

theorem Invariant.step (h : Invariant secret s) (hideal : ∀ x, suite.Ideal (secret x)) {e : Event}
    (hp : s.Permitted e) (hstep : s.step c e = some s') : Invariant secret s' := by
  cases e with
  | setHandshakeConfirmed x =>
    cases hstep
    have hk := (h x).half.keyed
    exact .of_set ((h x).of_progress ⟨hk.1, hk.2, hk.3, hk.4, hk.5, hk.6, hk.7⟩ rfl)
  | send x pn text ad ack =>
    cases hstep
    exact .of_set ((h x).sends c text ad hp.1 hp.2.1 hp.2.2)
  | receive x pn rcvTime pto new =>
    obtain ⟨m, hm, rfl⟩ := map_eq_some_iff.mp hstep
    have hm := mem_of_find?_eq_some hm
    exact .of_set ((h x).receives (hideal _) hm rcvTime pto new).1

theorem invariant_of_run {limit : Nat} (hideal : ∀ x, suite.Ideal (secret x)) {tr : List Event}
    (hrun : (machine c suite limit secret).Run tr s) : Invariant secret s := by
  refine Machine.Run.stable (I := Invariant secret) ?_ ?_ hrun
  · rintro s rfl
    exact .new limit
  · rintro s e s' hi ⟨hp, hstep⟩
    exact hi.step hideal hp hstep

/-- **Honest endpoints never see a KEY_UPDATE_ERROR.**  At every point of every run, for
either end: its phase is at most one ahead of the peer's, and whatever packet of the peer
arrives now, neither `Open` nor `SetLargestAcked` returns a KEY_UPDATE_ERROR, and the packet
is opened if it belongs to the current or the next phase, or to the previous one and that
key is not dropped yet. -/
theorem keyUpdates_safe {limit : Nat} (hideal : ∀ x, suite.Ideal (secret x)) {tr : List Event}
    (hrun : (machine c suite limit secret).Run tr s) (x : Perspective) :
    (s.get x).aead.keyPhase ≤ (s.get x.opposite).aead.keyPhase + 1 ∧
    ∀ m ∈ (s.get x.opposite).sent, ∀ (rcvTime pto : Int) (new : Bool),
      (∀ k, ((s.get x).receive m rcvTime pto new).2.opened ≠ .error (.keyUpdate k)) ∧
      (∀ k, ((s.get x).receive m rcvTime pto new).2.acked ≠ .error k) ∧
      (m.keyPhase = (s.get x).aead.keyPhase ∨ m.keyPhase = (s.get x).aead.keyPhase + 1 ∨
          m.keyPhase + 1 = (s.get x).aead.keyPhase ∧
            ((s.get x).aead.dropExpired rcvTime).prevRcvAEAD ≠ none →
        ((s.get x).receive m rcvTime pto new).2.opened = .ok m.text) := by
  have h := invariant_of_run hideal hrun x
  refine ⟨h.half.lead.le, fun m hm rcvTime pto new => ?_⟩
  obtain ⟨-, hopened, hack⟩ := h.receives (hideal _) hm rcvTime pto new
  refine ⟨hopened, fun k hk => ?_, fun hphase => ?_⟩
  · rw [hack] at hk
    cases hk
  · exact h.receive_eq_ok (hideal _) hm (h.opens hm hphase) pto new

/-- An ideal cipher suite: a sealed payload is the key with all that was sealed. -/
def idealSuite : CipherSuite where
  Secret := Perspective × Nat
  AEAD := Perspective × Nat
  Sealed := (Perspective × Nat) × Int × List UInt8 × List UInt8
  createAEAD := id
  getNextTrafficSecret secret := (secret.1, secret.2 + 1)
  sealWith key pn text ad := (key, pn, text, ad)
  openWith key pn src ad :=
    if src.1 = key ∧ src.2.1 = pn ∧ src.2.2.2 = ad then some src.2.2.1 else none

theorem keyOf_idealSuite (x : Perspective) (phase : Nat) :
    idealSuite.keyOf (x, 0) phase = (x, phase) := by
  induction phase with
  | zero => rfl
  | succ phase ih => exact congrArg idealSuite.getNextTrafficSecret ih

theorem ideal_idealSuite (x : Perspective) : idealSuite.Ideal (x, 0) where
  opens := by
    intro phase pn text ad
    exact if_pos ⟨rfl, rfl, rfl⟩
  rejects := by
    intro phase other pn text ad hne
    rw [keyOf_idealSuite, keyOf_idealSuite]
    exact if_neg fun h => hne (congrArg Prod.snd h.1).symm

/-- The client sends until it updates its keys, the server follows and acknowledges, and then
a packet arrives that the client had sent before. -/
def updateTrace : List Event :=
  .setHandshakeConfirmed .client ::
    ((List.range 101).map fun i => .send .client i [0x1] [] none) ++
    [.receive .server 100 10 1 true, .send .server 0 [0x2] [] (some 100),
      .receive .client 0 20 1 true, .receive .server 99 12 1 true]

def updatedKeys : System idealSuite :=
  let start := new idealSuite (2 ^ 52) fun x => (x, 0)
  (updateTrace.foldlM (fun s e => if Permitted s e then s.step {} e else none) start).getD start

theorem run_updateTrace :
    (machine {} idealSuite (2 ^ 52) fun x => (x, 0)).Run updateTrace updatedKeys := by
  have hsome : (updateTrace.foldlM (fun s e => if Permitted s e then s.step {} e else none)
      (new idealSuite (2 ^ 52) fun x => (x, 0))).isSome = true := by decide +kernel
  obtain ⟨s, hs⟩ := isSome_iff_exists.mp hsome
  unfold machine
  rw [Machine.run_guard_iff, updatedKeys, hs, getD_some]

theorem keyUpdates_safe_updatedKeys :
    ((updatedKeys.get .client).aead.keyPhase, (updatedKeys.get .server).aead.keyPhase,
      (updatedKeys.get .server).opened.map (·.keyPhase)) = (1, 1, [0, 1]) ∧
      ∀ m ∈ (updatedKeys.get .client).sent, ∀ (rcvTime pto : Int) (new : Bool) k,
        ((updatedKeys.get .server).receive m rcvTime pto new).2.opened ≠ .error (.keyUpdate k) :=
  ⟨by decide +kernel, fun m hm rcvTime pto new =>
    ((keyUpdates_safe ideal_idealSuite run_updateTrace .server).2 m hm rcvTime pto new).1⟩

end System

end Handshake

end UQuic
