/-
# `UQuic.Handshake.ClientKeys` — which keys a client has, and when

The keys of `internal/handshake/crypto_setup.go` (`u_crypto_setup.go` has the
same functions) and the parts of `connection.go` that install and drop them.
Of a key only its presence matters here.

    TLS, on a CRYPTO frame     installs Handshake keys, then 1-RTT keys, then completes
    a Handshake packet sent    drops the Initial keys
    HANDSHAKE_DONE, or an ACK  confirms the handshake and drops the Handshake keys
      of a 1-RTT packet

`GetHandshakeOpener` cannot tell "not yet" from "no longer" by itself: without a
Handshake opener it answers by whether the *Initial* opener is still there.  A
received packet for which the answer is "not yet" is queued, and
`tryQueueingUndecryptablePacket` panics if the handshake is complete.

## What is proved

`Settled`: no panic so far, and once the handshake is complete no opener answers
"not yet".  It holds along every run in which the handshake is confirmed only
after the Initial keys were dropped (`ConfirmsLate`).  A server that sends
HANDSHAKE_DONE before the client has sent a Handshake packet — all it takes is
three packets received between two sends — violates the condition, and the next
Handshake packet, authentic or not, crashes the client.
-/
import UQuic.Protocol
import UQuic.Lib.Machine

namespace UQuic.Handshake

/-- `ErrKeysNotYetAvailable` and `ErrKeysDropped`. -/
inductive KeyError
  | keysNotYetAvailable
  | keysDropped
  deriving DecidableEq, Repr

/-- The keys of `cryptoSetup` on the client: `true` where the source has a
non-nil opener or sealer. -/
structure CryptoSetup where
  initialOpener : Bool
  initialSealer : Bool
  handshakeOpener : Bool
  handshakeSealer : Bool
  has1RTTOpener : Bool
  has1RTTSealer : Bool
  deriving DecidableEq, Repr

namespace CryptoSetup

def new : CryptoSetup := ⟨true, true, false, false, false, false⟩

/-- `ChangeConnectionID`: new Initial keys. -/
def changeConnectionID (h : CryptoSetup) : CryptoSetup :=
  { h with initialOpener := true, initialSealer := true }

/-- `setReadKey` and `setWriteKey` for the Handshake level. -/
def setHandshakeKeys (h : CryptoSetup) : CryptoSetup :=
  { h with handshakeOpener := true, handshakeSealer := true }

/-- `setReadKey` and `setWriteKey` for the Application level. -/
def set1RTTKeys (h : CryptoSetup) : CryptoSetup :=
  { h with has1RTTOpener := true, has1RTTSealer := true }

def discardInitialKeys (h : CryptoSetup) : CryptoSetup :=
  { h with initialOpener := false, initialSealer := false }

def setHandshakeConfirmed (h : CryptoSetup) : CryptoSetup :=
  if h.handshakeOpener then { h with handshakeOpener := false, handshakeSealer := false } else h

def getInitialOpener (h : CryptoSetup) : Except KeyError Unit :=
  if h.initialOpener then .ok () else .error .keysDropped

def getHandshakeOpener (h : CryptoSetup) : Except KeyError Unit :=
  if h.handshakeOpener then .ok ()
  else if h.initialOpener then .error .keysNotYetAvailable
  else .error .keysDropped

def get1RTTOpener (h : CryptoSetup) : Except KeyError Unit :=
  if h.has1RTTOpener then .ok () else .error .keysNotYetAvailable

/-- The opener a received packet is unpacked with.  A client drops 0-RTT packets
before it looks for one. -/
def opener (h : CryptoSetup) : EncryptionLevel → Except KeyError Unit
  | .initial => h.getInitialOpener
  | .handshake => h.getHandshakeOpener
  | .oneRTT => h.get1RTTOpener
  | .zeroRTT => .error .keysDropped

end CryptoSetup

/-- How far TLS 1.3 has come on the client. -/
inductive TLSState
  | start
  | handshakeKeys
  | applicationKeys
  | complete
  deriving DecidableEq, Repr

def TLSState.hasHandshakeKeys : TLSState → Bool
  | .start => false
  | .handshakeKeys | .applicationKeys | .complete => true

def TLSState.has1RTTKeys : TLSState → Bool
  | .start | .handshakeKeys => false
  | .applicationKeys | .complete => true

def maxUndecryptablePackets : Nat := 32

/-- The client's `connection`, as far as keys go. -/
structure ClientConn where
  crypto : CryptoSetup
  tls : TLSState
  droppedInitialKeys : Bool
  handshakeComplete : Bool
  handshakeConfirmed : Bool
  receivedFirstPacket : Bool
  receivedRetry : Bool
  sent1RTT : Bool
  undecryptablePackets : Nat
  panicked : Bool
  deriving DecidableEq, Repr

/-- The frames of a received packet that matter here. -/
inductive RcvdFrame
  /-- A CRYPTO frame that lets TLS take its next step, if it is at this level. -/
  | crypto
  | handshakeDone
  /-- An ACK that acknowledges a 1-RTT packet. -/
  | ack1RTT
  | other
  deriving DecidableEq, Repr

namespace ClientConn

def new : ClientConn :=
  { crypto := .new, tls := .start, droppedInitialKeys := false, handshakeComplete := false,
    handshakeConfirmed := false, receivedFirstPacket := false, receivedRetry := false,
    sent1RTT := false, undecryptablePackets := 0, panicked := false }

/-- `handleHandshakeConfirmed`, taken once. -/
def confirm (c : ClientConn) : ClientConn :=
  if c.handshakeConfirmed then c
  else { c with handshakeConfirmed := true, crypto := c.crypto.setHandshakeConfirmed }

/-- `handleCryptoFrame`: HandleMessage and the events it leaves behind.  New read
keys take the undecryptable packets out of their queue. -/
def handleCryptoFrame (c : ClientConn) : EncryptionLevel → ClientConn
  | .initial =>
    match c.tls with
    | .start =>
      { c with tls := .handshakeKeys, crypto := c.crypto.setHandshakeKeys,
               undecryptablePackets := 0 }
    | .handshakeKeys | .applicationKeys | .complete => c
  | .handshake =>
    match c.tls with
    | .handshakeKeys =>
      { c with tls := .applicationKeys, crypto := c.crypto.set1RTTKeys,
               undecryptablePackets := 0 }
    | .applicationKeys => { c with tls := .complete, handshakeComplete := true }
    | .start | .complete => c
  | .zeroRTT | .oneRTT => c

/-- `handleFrame`.  HANDSHAKE_DONE is only allowed in 1-RTT packets, and only an
ACK in a 1-RTT packet acknowledges 1-RTT packets that were sent; anything else
closes the connection. -/
def handleFrame (c : ClientConn) (encLevel : EncryptionLevel) : RcvdFrame → Option ClientConn
  | .crypto => some (c.handleCryptoFrame encLevel)
  | .handshakeDone => if encLevel = .oneRTT then some c.confirm else none
  | .ack1RTT => if encLevel = .oneRTT ∧ c.sent1RTT then some c.confirm else none
  | .other => some c

def handleFrames (c : ClientConn) (encLevel : EncryptionLevel) (frames : List RcvdFrame) :
    Option ClientConn :=
  frames.foldlM (fun c f => c.handleFrame encLevel f) c

/-- `handleHandshakeComplete` on the client, for a packet that completed the
handshake. -/
def handleHandshakeComplete (c : ClientConn) (handshakeWasComplete : Bool) : ClientConn :=
  if !handshakeWasComplete && c.handshakeComplete then { c with undecryptablePackets := 0 } else c

def tryQueueingUndecryptablePacket (c : ClientConn) : ClientConn :=
  if c.handshakeComplete then { c with panicked := true }
  else if maxUndecryptablePackets < c.undecryptablePackets + 1 then c
  else { c with undecryptablePackets := c.undecryptablePackets + 1 }

/-- The first long header packet that is unpacked. -/
def markFirstPacket (c : ClientConn) : EncryptionLevel → ClientConn
  | .initial | .handshake => { c with receivedFirstPacket := true }
  | .zeroRTT | .oneRTT => c

/-- A packet arrives.  `payload` is `none` if it does not decrypt or is a
duplicate; the opener is looked up before either can be known. -/
def receivePacket (c : ClientConn) (encLevel : EncryptionLevel)
    (payload : Option (List RcvdFrame)) :
    Option ClientConn :=
  match c.crypto.opener encLevel with
  | .error .keysDropped => some c
  | .error .keysNotYetAvailable => some c.tryQueueingUndecryptablePacket
  | .ok () =>
    match payload with
    | none => some c
    | some frames =>
      ((c.markFirstPacket encLevel).handleFrames encLevel frames).map
        (·.handleHandshakeComplete c.handshakeComplete)

def handleRetryPacket (c : ClientConn) : ClientConn :=
  if c.receivedFirstPacket || c.receivedRetry then c
  else { c with receivedRetry := true, crypto := c.crypto.changeConnectionID }

/-- `dropEncryptionLevel(EncryptionInitial)`. -/
def dropInitial (c : ClientConn) : ClientConn :=
  { c with droppedInitialKeys := true, crypto := c.crypto.discardInitialKeys }

/-- `sendPackedCoalescedPacket`, and after the confirmation a packet with a short
header.  A packet can only be packed with the sealer of its level. -/
def sendPacket (c : ClientConn) (hasHandshake has1RTT : Bool) : Option ClientConn :=
  if (hasHandshake && (!c.crypto.handshakeSealer || c.handshakeConfirmed)) ||
      (has1RTT && !c.crypto.has1RTTSealer) then none
  else
    let c := { c with sent1RTT := c.sent1RTT || has1RTT }
    some (if hasHandshake && !c.droppedInitialKeys then c.dropInitial else c)

/-! ## Runs -/

/-- What can happen to the connection. -/
inductive Event
  | receivePacket (encLevel : EncryptionLevel) (payload : Option (List RcvdFrame))
  | receiveRetry
  | sendPacket (hasHandshake has1RTT : Bool)
  deriving DecidableEq, Repr

/-- One step; a connection that panicked takes none. -/
def step (c : ClientConn) (e : Event) : Option ClientConn :=
  if c.panicked then none
  else
    match e with
    | .receivePacket encLevel payload => c.receivePacket encLevel payload
    | .receiveRetry => some c.handleRetryPacket
    | .sendPacket hasHandshake has1RTT => c.sendPacket hasHandshake has1RTT

def machine : Machine ClientConn Event := .ofStep new step

/-- Nothing has panicked, and after completion no opener answers "not yet". -/
def Settled (c : ClientConn) : Prop :=
  c.panicked = false ∧
    (c.handshakeComplete = true →
      ∀ encLevel, c.crypto.opener encLevel ≠ .error .keysNotYetAvailable)

/-- The packet confirms the handshake. -/
def Confirms (c : ClientConn) : Event → Prop
  | .receivePacket .oneRTT (some frames) =>
    c.crypto.has1RTTOpener = true ∧ c.handshakeConfirmed = false ∧
      (.handshakeDone ∈ frames ∨ .ack1RTT ∈ frames)
  | _ => False

/-- The handshake is confirmed only after the Initial keys were dropped. -/
def ConfirmsLate (c : ClientConn) (e : Event) : Prop := c.Confirms e → c.droppedInitialKeys = true

instance (c : ClientConn) (e : Event) : Decidable (c.ConfirmsLate e) := by
  unfold ConfirmsLate Confirms; split <;> infer_instance

/-! ## The invariant -/

variable {c c' : ClientConn} {encLevel : EncryptionLevel}

/-- Which keys are there, by how far TLS is and what was dropped. -/
structure Inv (c : ClientConn) : Prop where
  initial : c.crypto.initialOpener = !c.droppedInitialKeys
  handshake : c.crypto.handshakeOpener = (c.tls.hasHandshakeKeys && !c.handshakeConfirmed)
  sealer : c.crypto.handshakeSealer = c.crypto.handshakeOpener
  oneRTT : c.crypto.has1RTTOpener = c.tls.has1RTTKeys
  complete : c.handshakeComplete = true → c.tls = .complete
  confirmed : c.handshakeConfirmed = true → c.tls.has1RTTKeys = true
  first : c.receivedFirstPacket = false → c.tls = .start
  dropped : c.droppedInitialKeys = true → c.tls.hasHandshakeKeys = true

theorem inv_new : Inv new :=
  ⟨rfl, rfl, rfl, rfl, fun h => (nomatch h), fun h => (nomatch h), fun _ => rfl,
    fun h => (nomatch h)⟩

theorem hasHandshakeKeys_of_has1RTTKeys : ∀ {t : TLSState}, t.has1RTTKeys = true →
    t.hasHandshakeKeys = true
  | .applicationKeys, _ | .complete, _ => rfl

/-- The answers of the openers, read off the invariant. -/
theorem opener_ne_notYet (hi : Inv c) (hcomp : c.handshakeComplete = true)
    (hlate : c.handshakeConfirmed = true → c.droppedInitialKeys = true) :
    ∀ encLevel, c.crypto.opener encLevel ≠ .error .keysNotYetAvailable
  | .initial => by
    simp only [CryptoSetup.opener, CryptoSetup.getInitialOpener]
    split <;> simp
  | .handshake => by
    simp only [CryptoSetup.opener, CryptoSetup.getHandshakeOpener, hi.handshake, hi.initial,
      hi.complete hcomp, TLSState.hasHandshakeKeys]
    cases hconf : c.handshakeConfirmed with
    | false => simp
    | true => simp [hlate hconf]
  | .zeroRTT => by simp [CryptoSetup.opener]
  | .oneRTT => by
    simp [CryptoSetup.opener, CryptoSetup.get1RTTOpener, hi.oneRTT, hi.complete hcomp,
      TLSState.has1RTTKeys]

theorem confirm_inv (hi : Inv c) (hkeys : c.tls.has1RTTKeys = true) : Inv c.confirm := by
  simp only [confirm]
  split_ifs with hconf
  · exact hi
  · have hopen : c.crypto.handshakeOpener = true := by
      rw [hi.handshake, hasHandshakeKeys_of_has1RTTKeys hkeys]
      simpa using hconf
    refine ⟨?_, ?_, ?_, ?_, hi.complete, fun _ => hkeys, hi.first, hi.dropped⟩
    · simpa [CryptoSetup.setHandshakeConfirmed, hopen] using hi.initial
    · simp [CryptoSetup.setHandshakeConfirmed, hopen]
    · simp [CryptoSetup.setHandshakeConfirmed, hopen]
    · simpa [CryptoSetup.setHandshakeConfirmed, hopen] using hi.oneRTT

theorem handleCryptoFrame_inv (hi : Inv c) :
    ∀ {encLevel : EncryptionLevel},
      ((encLevel = .initial ∨ encLevel = .handshake) → c.receivedFirstPacket = true) →
      Inv (c.handleCryptoFrame encLevel)
  | .initial, hfirst => by
    have hf := hfirst (.inl rfl)
    simp only [handleCryptoFrame]
    split
    · rename_i htls
      have hconf : c.handshakeConfirmed = false := by
        by_contra hne
        have := hi.confirmed (by simpa using hne)
        simp [htls, TLSState.has1RTTKeys] at this
      refine ⟨hi.initial, ?_, rfl, ?_, ?_, ?_, ?_, fun _ => rfl⟩
      · simp [CryptoSetup.setHandshakeKeys, TLSState.hasHandshakeKeys, hconf]
      · simpa [CryptoSetup.setHandshakeKeys, TLSState.has1RTTKeys, htls] using hi.oneRTT
      · intro hcomp
        have := hi.complete hcomp
        rw [htls] at this
        cases this
      · intro h
        rw [hconf] at h
        cases h
      · intro h
        rw [hf] at h
        cases h
    · exact hi
    · exact hi
    · exact hi
  | .handshake, hfirst => by
    have hf := hfirst (.inr rfl)
    simp only [handleCryptoFrame]
    split
    · rename_i htls
      refine ⟨hi.initial, ?_, hi.sealer, rfl, ?_, fun _ => rfl, ?_, fun _ => rfl⟩
      · have := hi.handshake
        rw [htls] at this
        exact this
      · intro hcomp
        have := hi.complete hcomp
        rw [htls] at this
        cases this
      · intro h
        rw [hf] at h
        cases h
    · rename_i htls
      refine ⟨hi.initial, ?_, hi.sealer, ?_, fun _ => rfl, fun _ => rfl, ?_, fun _ => rfl⟩
      · have := hi.handshake
        rw [htls] at this
        exact this
      · have := hi.oneRTT
        rw [htls] at this
        exact this
      · intro h
        rw [hf] at h
        cases h
    · exact hi
    · exact hi
  | .zeroRTT, _ | .oneRTT, _ => hi

/-- What one frame leaves alone. -/
structure FrameStep (encLevel : EncryptionLevel) (c c' : ClientConn) : Prop where
  droppedInitialKeys : c'.droppedInitialKeys = c.droppedInitialKeys
  panicked : c'.panicked = c.panicked
  receivedFirstPacket : c'.receivedFirstPacket = c.receivedFirstPacket
  tls : encLevel = .oneRTT → c'.tls = c.tls
  confirmed : encLevel ≠ .oneRTT → c'.handshakeConfirmed = c.handshakeConfirmed

theorem FrameStep.trans {c₁ c₂ c₃ : ClientConn}
    (h₁ : FrameStep encLevel c₁ c₂) (h₂ : FrameStep encLevel c₂ c₃) : FrameStep encLevel c₁ c₃ :=
  ⟨h₂.1.trans h₁.1, h₂.2.trans h₁.2, h₂.3.trans h₁.3, fun h => (h₂.4 h).trans (h₁.4 h),
    fun h => (h₂.5 h).trans (h₁.5 h)⟩

theorem confirm_frameStep (c : ClientConn) : FrameStep .oneRTT c c.confirm := by
  simp only [confirm]
  split
  · exact ⟨rfl, rfl, rfl, fun _ => rfl, fun h => absurd rfl h⟩
  · exact ⟨rfl, rfl, rfl, fun _ => rfl, fun h => absurd rfl h⟩

theorem handleCryptoFrame_frameStep (c : ClientConn) :
    ∀ encLevel, FrameStep encLevel c (c.handleCryptoFrame encLevel)
  | .initial | .handshake => by
    simp only [handleCryptoFrame]
    split <;> exact ⟨rfl, rfl, rfl, fun h => (nomatch h), fun _ => rfl⟩
  | .zeroRTT | .oneRTT => ⟨rfl, rfl, rfl, fun _ => rfl, fun _ => rfl⟩

theorem handleFrame_frameStep :
    ∀ {f : RcvdFrame}, c.handleFrame encLevel f = some c' → FrameStep encLevel c c'
  | .crypto, hs => by
    cases hs
    exact handleCryptoFrame_frameStep c encLevel
  | .handshakeDone, hs => by
    simp only [handleFrame] at hs
    split_ifs at hs with hl
    cases hs
    exact hl ▸ confirm_frameStep c
  | .ack1RTT, hs => by
    simp only [handleFrame] at hs
    split_ifs at hs with hl
    cases hs
    exact hl.1 ▸ confirm_frameStep c
  | .other, hs => by
    cases hs
    exact ⟨rfl, rfl, rfl, fun _ => rfl, fun _ => rfl⟩

/-- What a packet needs before its frames are handled. -/
structure Ready (encLevel : EncryptionLevel) (c : ClientConn) : Prop where
  first : encLevel = .initial ∨ encLevel = .handshake → c.receivedFirstPacket = true
  keys : encLevel = .oneRTT → c.tls.has1RTTKeys = true

theorem Ready.step (hr : Ready encLevel c) (h : FrameStep encLevel c c') : Ready encLevel c' :=
  ⟨fun hl => h.receivedFirstPacket.trans (hr.first hl), fun hl => (h.tls hl).symm ▸ hr.keys hl⟩

theorem handleFrame_inv (hi : Inv c) (hr : Ready encLevel c) :
    ∀ {f : RcvdFrame}, c.handleFrame encLevel f = some c' → Inv c'
  | .crypto, hs => by
    cases hs
    exact handleCryptoFrame_inv hi hr.first
  | .handshakeDone, hs => by
    simp only [handleFrame] at hs
    split_ifs at hs with hl
    cases hs
    exact confirm_inv hi (hr.keys hl)
  | .ack1RTT, hs => by
    simp only [handleFrame] at hs
    split_ifs at hs with hl
    cases hs
    exact confirm_inv hi (hr.keys hl.1)
  | .other, hs => by
    cases hs
    exact hi

/-- Confirming frames confirm. -/
theorem handleFrame_confirmed :
    ∀ {f : RcvdFrame}, c.handleFrame encLevel f = some c' →
      (c'.handshakeConfirmed = true ↔
        c.handshakeConfirmed = true ∨ f = .handshakeDone ∨ f = .ack1RTT)
  | .crypto, hs => by
    cases hs
    have : (c.handleCryptoFrame encLevel).handshakeConfirmed = c.handshakeConfirmed := by
      cases encLevel with
      | initial | handshake => simp only [handleCryptoFrame]; split <;> rfl
      | zeroRTT | oneRTT => rfl
    simp [this]
  | .handshakeDone, hs | .ack1RTT, hs => by
    simp only [handleFrame] at hs
    split_ifs at hs
    cases hs
    simp only [confirm]
    split <;> simp_all
  | .other, hs => by
    cases hs
    simp

/-- All frames of a packet: one induction for the invariant, for what stays and
for what is confirmed. -/
theorem handleFrames_spec :
    ∀ {frames : List RcvdFrame} {c : ClientConn}, Inv c → Ready encLevel c →
      c.handleFrames encLevel frames = some c' →
      Inv c' ∧ FrameStep encLevel c c' ∧
        (c'.handshakeConfirmed = true ↔
          c.handshakeConfirmed = true ∨ .handshakeDone ∈ frames ∨ .ack1RTT ∈ frames)
  | [], c, hi, _, hs => by
    cases hs
    exact ⟨hi, ⟨rfl, rfl, rfl, fun _ => rfl, fun _ => rfl⟩, by simp⟩
  | f :: frames, c, hi, hr, hs => by
    simp only [handleFrames, List.foldlM_cons, Option.bind_eq_bind, Option.bind_eq_some_iff] at hs
    obtain ⟨c₁, hs₁, hs⟩ := hs
    have h₁ := handleFrame_frameStep hs₁
    obtain ⟨hi', h', hc'⟩ := handleFrames_spec (handleFrame_inv hi hr hs₁) (hr.step h₁) hs
    refine ⟨hi', h₁.trans h', ?_⟩
    rw [hc', handleFrame_confirmed hs₁, List.mem_cons, List.mem_cons]
    grind

/-! ## One step, and whole runs -/

/-- The invariant does not look at the queue or at the panic. -/
theorem Inv.congr (hi : Inv c) (undecryptable : Nat) (panicked : Bool) :
    Inv { c with undecryptablePackets := undecryptable, panicked := panicked } :=
  { hi with }

theorem markFirstPacket_inv (hi : Inv c) : ∀ encLevel, Inv (c.markFirstPacket encLevel)
  | .initial | .handshake =>
    { hi with first := fun h => (nomatch h) }
  | .zeroRTT | .oneRTT => hi

theorem markFirstPacket_frameStep (c : ClientConn) (encLevel : EncryptionLevel) :
    (c.markFirstPacket encLevel).droppedInitialKeys = c.droppedInitialKeys ∧
      (c.markFirstPacket encLevel).panicked = c.panicked ∧
      (c.markFirstPacket encLevel).handshakeConfirmed = c.handshakeConfirmed := by
  cases encLevel <;> exact ⟨rfl, rfl, rfl⟩

/-- A packet whose opener is there may be unpacked. -/
theorem ready_of_opener (hi : Inv c) :
    ∀ {encLevel : EncryptionLevel}, c.crypto.opener encLevel = .ok () →
      Ready encLevel (c.markFirstPacket encLevel)
  | .initial, _ | .handshake, _ => ⟨fun _ => rfl, fun h => (nomatch h)⟩
  | .zeroRTT, h => nomatch h
  | .oneRTT, h => by
    refine ⟨fun h => h.elim (fun h => nomatch h) (fun h => nomatch h), fun _ => ?_⟩
    show c.tls.has1RTTKeys = true
    simp only [CryptoSetup.opener, CryptoSetup.get1RTTOpener] at h
    split_ifs at h with hkeys
    exact hi.oneRTT ▸ hkeys

theorem receivePacket_spec {payload : Option (List RcvdFrame)}
    (hi : Inv c) (hs : c.receivePacket encLevel payload = some c') :
    Inv c' ∧ c'.droppedInitialKeys = c.droppedInitialKeys ∧
      (c'.panicked = true → c.panicked = true ∨
        (c.handshakeComplete = true ∧ c.crypto.opener encLevel = .error .keysNotYetAvailable)) ∧
      (c'.handshakeConfirmed = true ↔
        c.handshakeConfirmed = true ∨ c.Confirms (.receivePacket encLevel payload)) := by
  have hno : ∀ e, c.crypto.opener encLevel = .error e →
      ¬ c.Confirms (.receivePacket encLevel payload) := by
    intro e he hc
    cases encLevel with
    | oneRTT =>
      cases payload with
      | none => exact hc
      | some frames => simp [CryptoSetup.opener, CryptoSetup.get1RTTOpener, hc.1] at he
    | initial | handshake | zeroRTT => exact hc
  simp only [receivePacket] at hs
  cases ho : c.crypto.opener encLevel with
  | error e =>
    have hn := hno e ho
    simp only [ho] at hs
    cases e with
    | keysDropped =>
      cases hs
      exact ⟨hi, rfl, Or.inl, ⟨Or.inl, fun h => h.resolve_right hn⟩⟩
    | keysNotYetAvailable =>
      cases hs
      simp only [tryQueueingUndecryptablePacket]
      split
      · rename_i hcomp
        exact ⟨hi.congr _ _, rfl, fun _ => .inr ⟨hcomp, trivial⟩,
          ⟨Or.inl, fun h => h.resolve_right hn⟩⟩
      · split
        · exact ⟨hi, rfl, Or.inl, ⟨Or.inl, fun h => h.resolve_right hn⟩⟩
        · exact ⟨hi.congr _ _, rfl, Or.inl, ⟨Or.inl, fun h => h.resolve_right hn⟩⟩
  | ok u =>
    simp only [ho] at hs
    cases payload with
    | none =>
      cases hs
      refine ⟨hi, rfl, Or.inl, ⟨Or.inl, fun h => h.resolve_right ?_⟩⟩
      cases encLevel <;> exact id
    | some frames =>
      obtain ⟨c₁, hf, rfl⟩ := Option.map_eq_some_iff.mp hs
      obtain ⟨hd, hp, hc⟩ := markFirstPacket_frameStep c encLevel
      obtain ⟨hi₁, hstep, hconf⟩ :=
        handleFrames_spec (markFirstPacket_inv hi encLevel) (ready_of_opener hi ho) hf
      have hcompl : ∀ b, Inv (c₁.handleHandshakeComplete b) ∧
          (c₁.handleHandshakeComplete b).droppedInitialKeys = c₁.droppedInitialKeys ∧
          (c₁.handleHandshakeComplete b).panicked = c₁.panicked ∧
          (c₁.handleHandshakeComplete b).handshakeConfirmed = c₁.handshakeConfirmed := by
        intro b
        simp only [handleHandshakeComplete]
        split
        · exact ⟨hi₁.congr _ _, rfl, rfl, rfl⟩
        · exact ⟨hi₁, rfl, rfl, rfl⟩
      obtain ⟨h₁, h₂, h₃, h₄⟩ := hcompl c.handshakeComplete
      refine ⟨h₁, h₂.trans (hstep.droppedInitialKeys.trans hd), ?_, ?_⟩
      · intro hpanic
        exact .inl (by rw [← hp, ← hstep.panicked, ← h₃]; exact hpanic)
      · rw [h₄]
        by_cases hl : encLevel = .oneRTT
        · subst hl
          have hkeys : c.crypto.has1RTTOpener = true := by
            have := (ready_of_opener hi ho).keys rfl
            rw [hi.oneRTT]
            exact this
          rw [hconf, hc, Confirms]
          cases hcf : c.handshakeConfirmed <;> simp [hkeys]
        · rw [hstep.confirmed hl, hc]
          refine ⟨Or.inl, fun h => h.resolve_right ?_⟩
          cases encLevel with
          | oneRTT => exact absurd rfl hl
          | initial | handshake | zeroRTT => exact id

theorem handleRetryPacket_inv (hi : Inv c) : Inv c.handleRetryPacket := by
  simp only [handleRetryPacket]
  split_ifs with hnew
  · exact hi
  · have hfirst : c.receivedFirstPacket = false := by
      by_contra hne
      exact hnew (by simp [hne])
    have htls := hi.first hfirst
    have hdrop : c.droppedInitialKeys = false := by
      by_contra hne
      have := hi.dropped (by simpa using hne)
      rw [htls] at this
      cases this
    refine { hi with initial := ?_ }
    simp [CryptoSetup.changeConnectionID, hdrop]

/-- A sent packet drops the Initial keys or leaves the keys alone. -/
theorem sendPacket_spec {hasHandshake has1RTT : Bool} (hi : Inv c)
    (hs : c.sendPacket hasHandshake has1RTT = some c') :
    Inv c' ∧ (c.droppedInitialKeys = true → c'.droppedInitialKeys = true) ∧
      c'.panicked = c.panicked ∧ c'.handshakeConfirmed = c.handshakeConfirmed := by
  simp only [sendPacket] at hs
  split at hs
  · cases hs
  · rename_i hcan
    have hi' : Inv { c with sent1RTT := c.sent1RTT || has1RTT } :=
      { hi with }
    cases hs
    split_ifs with hdrop
    · have hseal : c.crypto.handshakeSealer = true := by
        cases hsealer : c.crypto.handshakeSealer with
        | true => rfl
        | false =>
          simp only [Bool.and_eq_true] at hdrop
          simp [hsealer, hdrop.1] at hcan
      have hkeys : c.tls.hasHandshakeKeys = true := by
        have := hi.handshake
        rw [← hi.sealer, hseal] at this
        simp only [Bool.true_eq, Bool.and_eq_true] at this
        exact this.1
      refine ⟨{ hi with initial := rfl, dropped := fun _ => hkeys }, fun _ => rfl, rfl, rfl⟩
    · exact ⟨hi', id, rfl, rfl⟩

theorem step_inv {e : Event} (hi : Inv c) (hs : c.step e = some c') : Inv c' := by
  simp only [step] at hs
  split_ifs at hs
  cases e with
  | receivePacket encLevel payload => exact (receivePacket_spec hi hs).1
  | receiveRetry =>
    cases hs
    exact handleRetryPacket_inv hi
  | sendPacket hasHandshake has1RTT => exact (sendPacket_spec hi hs).1

/-- What a run keeps if it confirms late. -/
structure Late (c : ClientConn) : Prop where
  inv : Inv c
  late : c.handshakeConfirmed = true → c.droppedInitialKeys = true
  noPanic : c.panicked = false

theorem Late.settled (h : Late c) : c.Settled :=
  ⟨h.noPanic, fun hcomp => opener_ne_notYet h.inv hcomp h.late⟩

theorem step_late {e : Event} (h : Late c) (hk : c.ConfirmsLate e) (hs : c.step e = some c') :
    Late c' := by
  have hi' := step_inv h.inv hs
  simp only [step, h.noPanic, Bool.false_eq_true, if_false] at hs
  cases e with
  | receivePacket encLevel payload =>
    obtain ⟨-, hd, hp, hc⟩ := receivePacket_spec h.inv hs
    refine ⟨hi', fun hconf => ?_, ?_⟩
    · rw [hd]
      rcases hc.mp hconf with hconf | hconf
      · exact h.late hconf
      · exact hk hconf
    · by_contra hne
      rcases hp (by simpa using hne) with hpanic | ⟨hcomp, hopen⟩
      · rw [h.noPanic] at hpanic
        cases hpanic
      · exact opener_ne_notYet h.inv hcomp h.late encLevel hopen
  | receiveRetry =>
    cases hs
    refine ⟨hi', ?_, ?_⟩
    · simp only [handleRetryPacket]
      split <;> exact h.late
    · simp only [handleRetryPacket]
      split <;> exact h.noPanic
  | sendPacket hasHandshake has1RTT =>
    obtain ⟨-, hd, hp, hc⟩ := sendPacket_spec h.inv hs
    exact ⟨hi', fun hconf => hd (h.late (hc ▸ hconf)), hp.trans h.noPanic⟩

theorem run_late {tr : List Event} (hrun : (machine.guard ConfirmsLate).Run tr c) : Late c := by
  refine Machine.Run.stable (I := Late) ?_ ?_ hrun
  · intro s hs
    cases hs
    exact ⟨inv_new, fun h => (nomatch h), rfl⟩
  · intro s e s' h hstep
    exact step_late h hstep.1 hstep.2

/-- A packet that confirms too early makes `GetHandshakeOpener` answer "not
yet". -/
theorem opener_notYet_of_not_confirmsLate {e : Event} (hi : Inv c) (hk : ¬ c.ConfirmsLate e)
    (hs : c.step e = some c') : c'.crypto.opener .handshake = .error .keysNotYetAvailable := by
  simp only [ConfirmsLate, Classical.not_imp] at hk
  obtain ⟨hconf, hdrop⟩ := hk
  cases e with
  | receivePacket encLevel payload =>
    simp only [step] at hs
    split_ifs at hs
    obtain ⟨hi', hd, -, hc⟩ := receivePacket_spec hi hs
    have h₁ : c'.handshakeConfirmed = true := hc.mpr (.inr hconf)
    have h₂ : c'.droppedInitialKeys = false := by rw [hd]; simpa using hdrop
    simp [CryptoSetup.opener, CryptoSetup.getHandshakeOpener, hi'.handshake, hi'.initial, h₁, h₂]
  | receiveRetry | sendPacket hasHandshake has1RTT => exact hconf.elim

/-- **No panic over missing keys.**  Along a run that confirms the handshake only
after the Initial keys were dropped, no opener answers "not yet" once the
handshake is complete, and nothing panics; the first packet that confirms
earlier makes `GetHandshakeOpener` answer "not yet". -/
theorem settled_of_confirmsLate {tr : List Event} (hrun : (machine.guard ConfirmsLate).Run tr c) :
    c.Settled ∧ ∀ e c', ¬ c.ConfirmsLate e → c.step e = some c' →
      c'.crypto.opener .handshake = .error .keysNotYetAvailable :=
  ⟨(run_late hrun).settled, fun _ _ hk hs =>
    opener_notYet_of_not_confirmsLate (run_late hrun).inv hk hs⟩

/-- The server's flight: ServerHello, then the rest of its handshake. -/
def serverFlight : List Event :=
  [.receivePacket .initial (some [.crypto]), .receivePacket .handshake (some [.crypto, .crypto])]

/-- The client answers the flight before the server confirms. -/
theorem settled_of_orderly :
    ∃ c, (machine.guard ConfirmsLate).Run (serverFlight ++ [.sendPacket true true,
        .receivePacket .oneRTT (some [.handshakeDone]), .receivePacket .handshake none]) c ∧
      c.handshakeComplete = true ∧ c.handshakeConfirmed = true ∧ c.Settled := by
  let tr := serverFlight ++ [.sendPacket true true,
    .receivePacket .oneRTT (some [.handshakeDone]), .receivePacket .handshake none]
  let c := (tr.foldlM step new).getD new
  have hrun : (machine.guard ConfirmsLate).Run tr c := by
    rw [machine, Machine.run_guard_iff]
    decide
  exact ⟨c, hrun, by decide, by decide, (settled_of_confirmsLate hrun).1⟩

/-- The server confirms before the client has sent a Handshake packet, and sends
one more Handshake packet. -/
def earlyConfirmation : List Event :=
  serverFlight ++ [.receivePacket .oneRTT (some [.handshakeDone]), .receivePacket .handshake none]

/-- The client panics. -/
theorem panicked_earlyConfirmation :
    ∃ c, machine.Run earlyConfirmation c ∧ c.handshakeComplete = true ∧
      c.crypto.getHandshakeOpener = .error .keysNotYetAvailable ∧ c.panicked = true ∧
      ¬ c.Settled := by
  let c := (earlyConfirmation.foldlM step new).getD new
  have hrun : machine.Run earlyConfirmation c := Machine.run_ofStep_iff.mpr (by decide)
  have hpanic : c.panicked = true := by decide
  exact ⟨c, hrun, by decide, rfl, hpanic, fun h => by rw [h.1] at hpanic; cases hpanic⟩

end ClientConn

end UQuic.Handshake
