/-
# `UQuic.Handshake.UpdatableAEAD` — the 1-RTT keys

`internal/handshake/updatable_aead.go`.  Each side derives an endless chain of keys
for either direction, and a packet carries one bit of the number of its key, the key
phase.  A receiver holds three keys of the chain at most:

    previous   until a timer ends, or until the next update
    current    the phase it sends in itself
    next       a packet that opens with it makes the receiver update, too

and takes the one that the bit and the packet number point to.

## What is proved

`keyed_rollKeys`: the keys stay those of the phase.  For an ideal AEAD and a packet
that was sealed with some key of the chain, `Opening` is all that `Open` can do, and
`Opens` says which of these packets are opened.
-/
import UQuic.Handshake.ClientKeys

namespace UQuic.Handshake

/-- The errors with the code KEY_UPDATE_ERROR. -/
inductive KeyUpdateError
  /-- `keys updated too quickly`. -/
  | updatedTooQuickly
  /-- `received ACK for key phase %d, but peer didn't update keys`. -/
  | ackWithoutUpdate (keyPhase : Nat)
  deriving DecidableEq, Repr

/-- The errors of `Open`. -/
inductive OpenError
  /-- `ErrKeysDropped`. -/
  | keysDropped
  /-- `ErrDecryptionFailed`. -/
  | decryptionFailed
  /-- AEAD_LIMIT_REACHED. -/
  | aeadLimitReached
  | keyUpdate (e : KeyUpdateError)
  deriving DecidableEq, Repr

/-! ## Keys -/

/-- `cipherSuite`: how secrets follow each other, the AEAD of a secret, and what an AEAD does
with a packet number, a text and the associated data. -/
structure CipherSuite where
  Secret : Type
  AEAD : Type
  /-- Sealed payloads. -/
  Sealed : Type
  createAEAD : Secret → AEAD
  getNextTrafficSecret : Secret → Secret
  sealWith : AEAD → Int → List UInt8 → List UInt8 → Sealed
  openWith : AEAD → Int → Sealed → List UInt8 → Option (List UInt8)

namespace CipherSuite

variable (suite : CipherSuite)

def secretOf (secret : suite.Secret) : Nat → suite.Secret
  | 0 => secret
  | phase + 1 => suite.getNextTrafficSecret (secretOf secret phase)

def keyOf (secret : suite.Secret) (phase : Nat) : suite.AEAD :=
  suite.createAEAD (suite.secretOf secret phase)

/-- An ideal AEAD, as far as the keys after `secret` go: a sealed payload opens with its own
key, and with no other one. -/
structure Ideal (secret : suite.Secret) : Prop where
  opens : ∀ phase pn text ad,
    suite.openWith (suite.keyOf secret phase) pn
      (suite.sealWith (suite.keyOf secret phase) pn text ad) ad = some text
  rejects : ∀ phase other pn text ad, phase ≠ other →
    suite.openWith (suite.keyOf secret phase) pn
      (suite.sealWith (suite.keyOf secret other) pn text ad) ad = none

end CipherSuite

/-- `KeyPhase.Bit`: `true` for `KeyPhaseOne`. -/
def keyPhaseBit (keyPhase : Nat) : Bool := decide (keyPhase % 2 ≠ 0)

/-- `KeyUpdateInterval` and `FirstKeyUpdateInterval`, which are variables of the package. -/
structure KeyUpdateIntervals where
  keyUpdateInterval : Nat := 100 * 1000
  firstKeyUpdateInterval : Nat := 100

/-- `updatableAEAD`, once it has both keys. -/
structure UpdatableAEAD (suite : CipherSuite) where
  keyPhase : Nat
  largestAcked : Int
  firstPacketNumber : Int
  handshakeConfirmed : Bool
  invalidPacketLimit : Nat
  invalidPacketCount : Nat
  prevRcvAEADExpiry : Int
  prevRcvAEAD : Option suite.AEAD
  firstRcvdWithCurrentKey : Int
  firstSentWithCurrentKey : Int
  highestRcvdPN : Int
  numRcvdWithCurrentKey : Nat
  numSentWithCurrentKey : Nat
  rcvAEAD : suite.AEAD
  sendAEAD : suite.AEAD
  nextRcvAEAD : suite.AEAD
  nextSendAEAD : suite.AEAD
  nextRcvTrafficSecret : suite.Secret
  nextSendTrafficSecret : suite.Secret

namespace UpdatableAEAD

variable {suite : CipherSuite}

/-- `newUpdatableAEAD`, `SetReadKey` and `SetWriteKey`. -/
def new (suite : CipherSuite) (invalidPacketLimit : Nat) (rcv send : suite.Secret) :
    UpdatableAEAD suite where
  keyPhase := 0
  largestAcked := invalidPacketNumber
  firstPacketNumber := invalidPacketNumber
  handshakeConfirmed := false
  invalidPacketLimit := invalidPacketLimit
  invalidPacketCount := 0
  prevRcvAEADExpiry := 0
  prevRcvAEAD := none
  firstRcvdWithCurrentKey := invalidPacketNumber
  firstSentWithCurrentKey := invalidPacketNumber
  highestRcvdPN := 0
  numRcvdWithCurrentKey := 0
  numSentWithCurrentKey := 0
  rcvAEAD := suite.createAEAD rcv
  sendAEAD := suite.createAEAD send
  nextRcvAEAD := suite.createAEAD (suite.getNextTrafficSecret rcv)
  nextSendAEAD := suite.createAEAD (suite.getNextTrafficSecret send)
  nextRcvTrafficSecret := suite.getNextTrafficSecret rcv
  nextSendTrafficSecret := suite.getNextTrafficSecret send

def rollKeys (a : UpdatableAEAD suite) : UpdatableAEAD suite :=
  let nextRcvTrafficSecret := suite.getNextTrafficSecret a.nextRcvTrafficSecret
  let nextSendTrafficSecret := suite.getNextTrafficSecret a.nextSendTrafficSecret
  { a with
    prevRcvAEADExpiry := if a.prevRcvAEAD.isSome then 0 else a.prevRcvAEADExpiry
    keyPhase := a.keyPhase + 1
    firstRcvdWithCurrentKey := invalidPacketNumber
    firstSentWithCurrentKey := invalidPacketNumber
    numRcvdWithCurrentKey := 0
    numSentWithCurrentKey := 0
    prevRcvAEAD := some a.rcvAEAD
    rcvAEAD := a.nextRcvAEAD
    sendAEAD := a.nextSendAEAD
    nextRcvTrafficSecret := nextRcvTrafficSecret
    nextSendTrafficSecret := nextSendTrafficSecret
    nextRcvAEAD := suite.createAEAD nextRcvTrafficSecret
    nextSendAEAD := suite.createAEAD nextSendTrafficSecret }

/-- `startKeyDropTimer`, where `pto` is `rttStats.PTO(true)`. -/
def startKeyDropTimer (a : UpdatableAEAD suite) (now pto : Int) : UpdatableAEAD suite :=
  { a with prevRcvAEADExpiry := now + 3 * pto }

/-! ## Opening -/

/-- The beginning of `open`: a previous key whose time is over is dropped. -/
def dropExpired (a : UpdatableAEAD suite) (rcvTime : Int) : UpdatableAEAD suite :=
  if a.prevRcvAEAD.isSome ∧ isZeroTime a.prevRcvAEADExpiry = false ∧ a.prevRcvAEADExpiry < rcvTime
  then { a with prevRcvAEAD := none, prevRcvAEADExpiry := 0 }
  else a

/-- `open`, for a packet of the other phase that cannot belong to the next one. -/
def openPrevious (a : UpdatableAEAD suite) (src : suite.Sealed) (pn : Int) (ad : List UInt8) :
    Except OpenError (List UInt8) :=
  match a.prevRcvAEAD with
  | none => .error .keysDropped
  | some prevRcvAEAD =>
    match suite.openWith prevRcvAEAD pn src ad with
    | none => .error .decryptionFailed
    | some dec => .ok dec

/-- `open`, for a packet that may belong to the next phase. -/
def openNext (a : UpdatableAEAD suite) (src : suite.Sealed) (rcvTime pto pn : Int)
    (ad : List UInt8) : UpdatableAEAD suite × Except OpenError (List UInt8) :=
  match suite.openWith a.nextRcvAEAD pn src ad with
  | none => (a, .error .decryptionFailed)
  | some dec =>
    if 0 < a.keyPhase ∧ a.firstSentWithCurrentKey = invalidPacketNumber then
      (a, .error (.keyUpdate .updatedTooQuickly))
    else
      ({ a.rollKeys.startKeyDropTimer rcvTime pto with firstRcvdWithCurrentKey := pn }, .ok dec)

/-- The first packet that is opened in a phase. -/
def noteFirstRcvd (a : UpdatableAEAD suite) (rcvTime pto pn : Int) : UpdatableAEAD suite :=
  if a.firstRcvdWithCurrentKey = invalidPacketNumber then
    { (if 0 < a.keyPhase then a.startKeyDropTimer rcvTime pto else a) with
      firstRcvdWithCurrentKey := pn }
  else a

/-- `open`, for a packet of the current phase. -/
def openCurrent (a : UpdatableAEAD suite) (src : suite.Sealed) (rcvTime pto pn : Int)
    (ad : List UInt8) : UpdatableAEAD suite × Except OpenError (List UInt8) :=
  match suite.openWith a.rcvAEAD pn src ad with
  | none => (a, .error .decryptionFailed)
  | some dec =>
    (noteFirstRcvd { a with numRcvdWithCurrentKey := a.numRcvdWithCurrentKey + 1 } rcvTime pto pn,
      .ok dec)

/-- A packet of the other phase belongs to the previous one. -/
def IsPrevious (a : UpdatableAEAD suite) (pn : Int) : Prop :=
  0 < a.keyPhase ∧ a.firstRcvdWithCurrentKey = invalidPacketNumber ∨ pn < a.firstRcvdWithCurrentKey

instance (a : UpdatableAEAD suite) (pn : Int) : Decidable (a.IsPrevious pn) :=
  inferInstanceAs (Decidable (_ ∨ _))

/-- `open`. -/
def openWithKeys (a : UpdatableAEAD suite) (src : suite.Sealed) (rcvTime pto pn : Int) (kp : Bool)
    (ad : List UInt8) : UpdatableAEAD suite × Except OpenError (List UInt8) :=
  let a := a.dropExpired rcvTime
  if kp ≠ keyPhaseBit a.keyPhase then
    if a.IsPrevious pn then (a, a.openPrevious src pn ad) else a.openNext src rcvTime pto pn ad
  else a.openCurrent src rcvTime pto pn ad

/-- `Open`: the keys afterwards, and the plaintext. -/
def openPayload (a : UpdatableAEAD suite) (src : suite.Sealed) (rcvTime pto pn : Int) (kp : Bool)
    (ad : List UInt8) : UpdatableAEAD suite × Except OpenError (List UInt8) :=
  match a.openWithKeys src rcvTime pto pn kp ad with
  | (a, .error .decryptionFailed) =>
    let a := { a with invalidPacketCount := a.invalidPacketCount + 1 }
    if a.invalidPacketLimit ≤ a.invalidPacketCount then (a, .error .aeadLimitReached)
    else (a, .error .decryptionFailed)
  | (a, .error e) => (a, .error e)
  | (a, .ok dec) => ({ a with highestRcvdPN := max a.highestRcvdPN pn }, .ok dec)

/-! ## Sealing -/

/-- `Seal`. -/
def sealPayload (a : UpdatableAEAD suite) (src : List UInt8) (pn : Int) (ad : List UInt8) :
    UpdatableAEAD suite × suite.Sealed :=
  ({ a with
    firstSentWithCurrentKey :=
      if a.firstSentWithCurrentKey = invalidPacketNumber then pn else a.firstSentWithCurrentKey
    firstPacketNumber :=
      if a.firstPacketNumber = invalidPacketNumber then pn else a.firstPacketNumber
    numSentWithCurrentKey := a.numSentWithCurrentKey + 1 }, suite.sealWith a.sendAEAD pn src ad)

def setLargestAcked (a : UpdatableAEAD suite) (pn : Int) :
    Except KeyUpdateError (UpdatableAEAD suite) :=
  if a.firstSentWithCurrentKey ≠ invalidPacketNumber ∧ a.firstSentWithCurrentKey ≤ pn ∧
      a.numRcvdWithCurrentKey = 0 then
    .error (.ackWithoutUpdate a.keyPhase)
  else .ok { a with largestAcked := pn }

def setHandshakeConfirmed (a : UpdatableAEAD suite) : UpdatableAEAD suite :=
  { a with handshakeConfirmed := true }

def updateAllowed (a : UpdatableAEAD suite) : Bool :=
  a.handshakeConfirmed &&
    (a.keyPhase == 0 || (a.firstSentWithCurrentKey != invalidPacketNumber &&
      a.largestAcked != invalidPacketNumber && decide (a.firstSentWithCurrentKey ≤ a.largestAcked)))

def shouldInitiateKeyUpdate (a : UpdatableAEAD suite) (c : KeyUpdateIntervals) : Bool :=
  a.updateAllowed &&
    (a.keyPhase == 0 && (decide (c.firstKeyUpdateInterval ≤ a.numRcvdWithCurrentKey) ||
        decide (c.firstKeyUpdateInterval ≤ a.numSentWithCurrentKey)) ||
      decide (c.keyUpdateInterval ≤ a.numRcvdWithCurrentKey) ||
      decide (c.keyUpdateInterval ≤ a.numSentWithCurrentKey))

/-- `KeyPhase`, which updates the keys if it is time to: the keys afterwards, and the bit. -/
def keyPhaseToSend (a : UpdatableAEAD suite) (c : KeyUpdateIntervals) :
    UpdatableAEAD suite × Bool :=
  let a := if a.shouldInitiateKeyUpdate c then a.rollKeys else a
  (a, keyPhaseBit a.keyPhase)

/-! ## The keys are those of the phase -/

/-- The keys of the current phase, on the chains after the two secrets. -/
structure Keyed (a : UpdatableAEAD suite) (rcv send : suite.Secret) : Prop where
  rcvAEAD_eq : a.rcvAEAD = suite.keyOf rcv a.keyPhase
  sendAEAD_eq : a.sendAEAD = suite.keyOf send a.keyPhase
  nextRcv_eq : a.nextRcvTrafficSecret = suite.secretOf rcv (a.keyPhase + 1)
  nextSend_eq : a.nextSendTrafficSecret = suite.secretOf send (a.keyPhase + 1)
  nextRcvAEAD_eq : a.nextRcvAEAD = suite.createAEAD a.nextRcvTrafficSecret
  nextSendAEAD_eq : a.nextSendAEAD = suite.createAEAD a.nextSendTrafficSecret
  prevRcvAEAD_eq : ∀ k, a.prevRcvAEAD = some k →
    ∃ phase, a.keyPhase = phase + 1 ∧ k = suite.keyOf rcv phase

variable {a b : UpdatableAEAD suite} {rcv send : suite.Secret}

theorem keyed_new (limit : Nat) : (new suite limit rcv send).Keyed rcv send :=
  ⟨rfl, rfl, rfl, rfl, rfl, rfl, nofun⟩

/-- **The keys after an update are those of the next phase.** -/
theorem keyed_rollKeys (h : a.Keyed rcv send) : a.rollKeys.Keyed rcv send where
  rcvAEAD_eq := h.nextRcvAEAD_eq.trans (congrArg suite.createAEAD h.nextRcv_eq)
  sendAEAD_eq := h.nextSendAEAD_eq.trans (congrArg suite.createAEAD h.nextSend_eq)
  nextRcv_eq := congrArg suite.getNextTrafficSecret h.nextRcv_eq
  nextSend_eq := congrArg suite.getNextTrafficSecret h.nextSend_eq
  nextRcvAEAD_eq := rfl
  nextSendAEAD_eq := rfl
  prevRcvAEAD_eq := by
    intro k hk
    cases hk
    exact ⟨a.keyPhase, rfl, h.rcvAEAD_eq⟩

theorem Keyed.dropExpired (h : a.Keyed rcv send) (rcvTime : Int) :
    (a.dropExpired rcvTime).Keyed rcv send := by
  rw [UpdatableAEAD.dropExpired]
  split
  · exact ⟨h.1, h.2, h.3, h.4, h.5, h.6, nofun⟩
  · exact h

theorem Keyed.noteFirstRcvd (h : a.Keyed rcv send) (rcvTime pto pn : Int) :
    (a.noteFirstRcvd rcvTime pto pn).Keyed rcv send := by
  rw [UpdatableAEAD.noteFirstRcvd]
  split
  · split
    · exact ⟨h.1, h.2, h.3, h.4, h.5, h.6, h.7⟩
    · exact ⟨h.1, h.2, h.3, h.4, h.5, h.6, h.7⟩
  · exact h

/-! ## What `Open` can do with a packet of some phase -/

/-- What decides about keys: the phase, and the packet numbers that are compared. -/
structure Progress where
  keyPhase : Nat
  largestAcked : Int
  firstRcvd : Int
  firstSent : Int

def progress (a : UpdatableAEAD suite) : Progress :=
  ⟨a.keyPhase, a.largestAcked, a.firstRcvdWithCurrentKey, a.firstSentWithCurrentKey⟩

/-- What `Open` may do with packet `pn` of phase `phase`, whose plaintext is `text`. -/
inductive Opening (a : UpdatableAEAD suite) (phase : Nat) (pn : Int) (text : List UInt8) :
    UpdatableAEAD suite → Except OpenError (List UInt8) → Prop
  | failed {b : UpdatableAEAD suite} {e : OpenError} : (∀ k, e ≠ .keyUpdate k) →
      b.progress = a.progress → Opening a phase pn text b (.error e)
  | tooQuickly {b : UpdatableAEAD suite} : phase = a.keyPhase + 1 → 0 < a.keyPhase →
      a.firstSentWithCurrentKey = invalidPacketNumber → b.progress = a.progress →
      Opening a phase pn text b (.error (.keyUpdate .updatedTooQuickly))
  | previous {b : UpdatableAEAD suite} : phase + 1 = a.keyPhase → b.progress = a.progress →
      Opening a phase pn text b (.ok text)
  | next {b : UpdatableAEAD suite} : phase = a.keyPhase + 1 →
      b.progress = ⟨phase, a.largestAcked, pn, invalidPacketNumber⟩ →
      Opening a phase pn text b (.ok text)
  | current {b : UpdatableAEAD suite} : phase = a.keyPhase → 0 < b.numRcvdWithCurrentKey →
      b.progress = ⟨phase, a.largestAcked,
        if a.firstRcvdWithCurrentKey = invalidPacketNumber then pn else a.firstRcvdWithCurrentKey,
        a.firstSentWithCurrentKey⟩ →
      Opening a phase pn text b (.ok text)

theorem progress_dropExpired (rcvTime : Int) : (a.dropExpired rcvTime).progress = a.progress := by
  rw [dropExpired]
  split
  · rfl
  · rfl

theorem keyPhase_dropExpired (rcvTime : Int) : (a.dropExpired rcvTime).keyPhase = a.keyPhase :=
  congrArg Progress.keyPhase (progress_dropExpired rcvTime)

section Opening

variable (hideal : suite.Ideal rcv) (hkeyed : a.Keyed rcv send) (phase : Nat)
  (text ad : List UInt8) (rcvTime pto pn : Int)

include hideal

/-- A key opens exactly what was sealed with it. -/
theorem openWith_keyOf (other : Nat) : suite.openWith (suite.keyOf rcv other) pn
      (suite.sealWith (suite.keyOf rcv phase) pn text ad) ad =
        if other = phase then some text else none := by
  split_ifs with h
  · rw [h, hideal.opens]
  · exact hideal.rejects other phase pn text ad h

include hkeyed

theorem openPrevious_eq : a.openPrevious (suite.sealWith (suite.keyOf rcv phase) pn text ad) pn ad =
      if a.prevRcvAEAD = none then .error .keysDropped
      else if a.keyPhase = phase + 1 then .ok text else .error .decryptionFailed := by
  rw [openPrevious]
  cases hprev : a.prevRcvAEAD with
  | none => rfl
  | some k =>
    obtain ⟨other, hphase, rfl⟩ := hkeyed.prevRcvAEAD_eq k hprev
    simp only [openWith_keyOf hideal, hphase, Nat.add_right_cancel_iff, reduceCtorEq, if_false]
    by_cases h : other = phase
    · rw [if_pos h, if_pos h]
    · rw [if_neg h, if_neg h]

theorem openNext_eq :
    a.openNext (suite.sealWith (suite.keyOf rcv phase) pn text ad) rcvTime pto pn ad =
      if a.keyPhase + 1 = phase then
        if 0 < a.keyPhase ∧ a.firstSentWithCurrentKey = invalidPacketNumber then
          (a, .error (.keyUpdate .updatedTooQuickly))
        else
          ({ a.rollKeys.startKeyDropTimer rcvTime pto with firstRcvdWithCurrentKey := pn },
            .ok text)
      else (a, .error .decryptionFailed) := by
  have hnext : a.nextRcvAEAD = suite.keyOf rcv (a.keyPhase + 1) := by
    rw [hkeyed.nextRcvAEAD_eq, hkeyed.nextRcv_eq]
    rfl
  rw [openNext, hnext, openWith_keyOf hideal]
  by_cases h : a.keyPhase + 1 = phase
  · rw [if_pos h, if_pos h]
  · rw [if_neg h, if_neg h]

theorem openCurrent_eq :
    a.openCurrent (suite.sealWith (suite.keyOf rcv phase) pn text ad) rcvTime pto pn ad =
      if a.keyPhase = phase then
        (noteFirstRcvd { a with numRcvdWithCurrentKey := a.numRcvdWithCurrentKey + 1 } rcvTime pto
          pn, .ok text)
      else (a, .error .decryptionFailed) := by
  rw [openCurrent, hkeyed.rcvAEAD_eq, openWith_keyOf hideal]
  by_cases h : a.keyPhase = phase
  · rw [if_pos h, if_pos h]
  · rw [if_neg h, if_neg h]

theorem openNext_opening :
    let r := a.openNext (suite.sealWith (suite.keyOf rcv phase) pn text ad) rcvTime pto pn ad
    r.1.Keyed rcv send ∧ Opening a phase pn text r.1 r.2 := by
  dsimp only
  rw [openNext_eq hideal hkeyed]
  split
  · rename_i hphase
    split_ifs with hquick
    · exact ⟨hkeyed, .tooQuickly hphase.symm hquick.1 hquick.2 rfl⟩
    · refine ⟨?_, .next hphase.symm ?_⟩
      · have hroll := keyed_rollKeys hkeyed
        exact ⟨hroll.1, hroll.2, hroll.3, hroll.4, hroll.5, hroll.6, hroll.7⟩
      · rw [← hphase]
        rfl
  · exact ⟨hkeyed, .failed nofun rfl⟩

theorem openCurrent_opening :
    let r := a.openCurrent (suite.sealWith (suite.keyOf rcv phase) pn text ad) rcvTime pto pn ad
    r.1.Keyed rcv send ∧ Opening a phase pn text r.1 r.2 := by
  dsimp only
  rw [openCurrent_eq hideal hkeyed]
  split_ifs with hphase
  · have hcounted : Keyed { a with
        numRcvdWithCurrentKey := a.numRcvdWithCurrentKey + 1 } rcv send :=
      ⟨hkeyed.1, hkeyed.2, hkeyed.3, hkeyed.4, hkeyed.5, hkeyed.6, hkeyed.7⟩
    refine ⟨hcounted.noteFirstRcvd rcvTime pto pn, ?_⟩
    subst hphase
    by_cases hfirst : a.firstRcvdWithCurrentKey = invalidPacketNumber
    · rw [noteFirstRcvd, if_pos hfirst]
      refine .current rfl ?_ ?_
      · split
        · exact Nat.succ_pos _
        · exact Nat.succ_pos _
      · rw [if_pos hfirst]
        split
        · rfl
        · rfl
    · rw [noteFirstRcvd, if_neg hfirst]
      refine .current rfl (Nat.succ_pos _) ?_
      rw [if_neg hfirst]
      rfl
  · exact ⟨hkeyed, .failed nofun rfl⟩

theorem openWithKeys_opening (kp : Bool) :
    let r := a.openWithKeys (suite.sealWith (suite.keyOf rcv phase) pn text ad) rcvTime pto pn kp ad
    r.1.Keyed rcv send ∧ Opening (a.dropExpired rcvTime) phase pn text r.1 r.2 := by
  have hdropped := hkeyed.dropExpired rcvTime
  rw [openWithKeys]
  dsimp only
  split
  · split
    · refine ⟨hdropped, ?_⟩
      rw [openPrevious_eq hideal hdropped]
      split
      · exact .failed nofun rfl
      · split_ifs with hphase
        · exact .previous hphase.symm rfl
        · exact .failed nofun rfl
    · exact openNext_opening hideal hdropped phase text ad rcvTime pto pn
  · exact openCurrent_opening hideal hdropped phase text ad rcvTime pto pn

end Opening

theorem Opening.of_progress {c : UpdatableAEAD suite} {phase : Nat} {pn : Int} {text : List UInt8}
    {r : Except OpenError (List UInt8)} (h : Opening a phase pn text b r)
    (hc : c.progress = a.progress) : Opening c phase pn text b r := by
  have hphase : c.keyPhase = a.keyPhase := congrArg Progress.keyPhase hc
  have hack : c.largestAcked = a.largestAcked := congrArg Progress.largestAcked hc
  have hrcvd : c.firstRcvdWithCurrentKey = a.firstRcvdWithCurrentKey :=
    congrArg Progress.firstRcvd hc
  have hsent : c.firstSentWithCurrentKey = a.firstSentWithCurrentKey :=
    congrArg Progress.firstSent hc
  cases h with
  | failed he hb => exact .failed he (hb.trans hc.symm)
  | tooQuickly h1 h2 h3 hb =>
    exact .tooQuickly (hphase ▸ h1) (hphase ▸ h2) (hsent.trans h3) (hb.trans hc.symm)
  | previous h1 hb => exact .previous (hphase ▸ h1) (hb.trans hc.symm)
  | next h1 hb => exact .next (hphase ▸ h1) (hack ▸ hb)
  | current h1 h2 hb =>
    refine .current (hphase ▸ h1) h2 ?_
    rw [hack, hrcvd, hsent]
    exact hb

/-- **All that `Open` can do** with a packet that was sealed with a key of the chain. -/
theorem openPayload_opening (hideal : suite.Ideal rcv) (hkeyed : a.Keyed rcv send) (phase : Nat)
    (text ad : List UInt8) (rcvTime pto pn : Int) (kp : Bool) :
    let r := a.openPayload (suite.sealWith (suite.keyOf rcv phase) pn text ad) rcvTime pto pn kp ad
    r.1.Keyed rcv send ∧ Opening a phase pn text r.1 r.2 := by
  obtain ⟨hkeys, hopen⟩ := openWithKeys_opening hideal hkeyed phase text ad rcvTime pto pn kp
  have hopen := hopen.of_progress (progress_dropExpired rcvTime).symm
  rw [openPayload]
  generalize a.openWithKeys (suite.sealWith (suite.keyOf rcv phase) pn text ad) rcvTime pto pn kp ad
    = r at hkeys hopen
  obtain ⟨b, r⟩ := r
  have hsame : ∀ (n : Nat) (m : Int),
      Keyed { b with invalidPacketCount := n, highestRcvdPN := m } rcv send :=
    fun n m => ⟨hkeys.1, hkeys.2, hkeys.3, hkeys.4, hkeys.5, hkeys.6, hkeys.7⟩
  dsimp only at hopen ⊢
  cases hopen with
  | @failed e he hb =>
    cases e with
    | decryptionFailed =>
      dsimp only
      split
      · exact ⟨hsame _ _, .failed nofun hb⟩
      · exact ⟨hsame _ _, .failed nofun hb⟩
    | keysDropped | aeadLimitReached => exact ⟨hkeys, .failed nofun hb⟩
    | keyUpdate k => exact absurd rfl (he k)
  | tooQuickly h1 h2 h3 hb => exact ⟨hkeys, .tooQuickly h1 h2 h3 hb⟩
  | previous h1 hb => exact ⟨hsame _ _, .previous h1 hb⟩
  | next h1 hb => exact ⟨hsame _ _, .next h1 hb⟩
  | current h1 h2 hb => exact ⟨hsame _ _, .current h1 h2 hb⟩

/-! ## Packets that are opened -/

theorem keyPhaseBit_succ (phase : Nat) : keyPhaseBit (phase + 1) ≠ keyPhaseBit phase := by
  rw [keyPhaseBit, keyPhaseBit]
  intro h
  have := decide_eq_decide.mp h
  omega

/-- A plaintext that is found is returned. -/
theorem openPayload_eq_ok {src : suite.Sealed} {rcvTime pto pn : Int} {kp : Bool}
    {text ad : List UInt8} (h : (a.openWithKeys src rcvTime pto pn kp ad).2 = .ok text) :
    (a.openPayload src rcvTime pto pn kp ad).2 = .ok text := by
  rw [openPayload]
  generalize a.openWithKeys src rcvTime pto pn kp ad = r at h
  obtain ⟨b, r⟩ := r
  dsimp only at h
  subst h
  rfl

/-- The packets of phase `phase` that can be opened: those of the current phase, those of the
next one if the packet numbers and the update before it allow it, and those of the previous
one as long as its key is there. -/
inductive Opens (a : UpdatableAEAD suite) (phase : Nat) (pn rcvTime : Int) : Prop
  | current : phase = a.keyPhase → Opens a phase pn rcvTime
  | next : phase = a.keyPhase + 1 → ¬ a.IsPrevious pn →
      ¬ (0 < a.keyPhase ∧ a.firstSentWithCurrentKey = invalidPacketNumber) →
      Opens a phase pn rcvTime
  | previous : phase + 1 = a.keyPhase → a.IsPrevious pn →
      (a.dropExpired rcvTime).prevRcvAEAD ≠ none → Opens a phase pn rcvTime

theorem isPrevious_dropExpired (rcvTime pn : Int) :
    (a.dropExpired rcvTime).IsPrevious pn ↔ a.IsPrevious pn := by
  rw [dropExpired]
  split
  · exact Iff.rfl
  · exact Iff.rfl

theorem Opens.openPayload (hideal : suite.Ideal rcv) (hkeyed : a.Keyed rcv send) {phase : Nat}
    {pn rcvTime : Int} (h : a.Opens phase pn rcvTime) (text ad : List UInt8) (pto : Int) :
    (a.openPayload (suite.sealWith (suite.keyOf rcv phase) pn text ad) rcvTime pto pn
      (keyPhaseBit phase) ad).2 = .ok text := by
  have hdropped := hkeyed.dropExpired rcvTime
  have hphase := keyPhase_dropExpired (a := a) rcvTime
  have hsent : (a.dropExpired rcvTime).firstSentWithCurrentKey = a.firstSentWithCurrentKey :=
    congrArg Progress.firstSent (progress_dropExpired rcvTime)
  refine openPayload_eq_ok ?_
  rw [openWithKeys]
  cases h with
  | current h =>
    rw [hphase, h, if_neg (not_not.mpr rfl), openCurrent_eq hideal hdropped, hphase, if_pos rfl]
  | next h hprev hquick =>
    rw [hphase, h, if_pos (keyPhaseBit_succ _), if_neg (mt (isPrevious_dropExpired _ _).mp hprev),
      openNext_eq hideal hdropped, hphase, if_pos rfl, hsent, if_neg hquick]
  | previous h hprev hkey =>
    rw [hphase, ← h, if_pos (keyPhaseBit_succ _).symm,
      if_pos ((isPrevious_dropExpired _ _).mpr hprev), openPrevious_eq hideal hdropped,
      if_neg hkey, hphase, ← h, if_pos rfl]

end UpdatableAEAD

end UQuic.Handshake
