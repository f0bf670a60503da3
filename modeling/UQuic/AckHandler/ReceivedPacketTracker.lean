/-
# `UQuic.AckHandler.ReceivedPacketTracker` — deciding when an ACK is due

`internal/ackhandler/received_packet_tracker.go`: the tracker of the Initial
and Handshake spaces, which acknowledges at once, and the tracker of the
application data space, which waits for a second packet, a gap or a timer and
forgets packets below a limit.

`GetAckFrame` always hands out the same frame object, refilled; the tracker
keeps a pointer to it as `lastAck`.  The model returns the frame and stores the
same value, so what the tracker later reads from `lastAck` is what was sent.

`TrackerInv` is what the operations keep.  Three of its clauses are about the
history; the fourth is the one the frames depend on: **when an ACK is due, the
history holds a range**.  `IgnoreBelow` can break it, and only `IgnoreBelow`
can; `setIgnoreBelow_inv` carries the side condition.
-/
import UQuic.AckHandler.ReceivedPacketHistory

namespace UQuic.AckHandler

open IntRange
open UQuic.Wire (AckRange AckFrame)

/-- What a call that records a packet can fail with. -/
inductive ReceiveError
  /-- `ReceivedPacket` was called for an old or duplicate packet. -/
  | oldOrDuplicate (pn : Int)
  /-- A 0-RTT packet arrived after a 1-RTT packet with a lower number. -/
  | zeroRTTAfter1RTT (pn lowest : Int)
  /-- The process panics: a nil tracker, or an index into a frame without ranges. -/
  | panic
  deriving DecidableEq, Repr

def ReceiveError.message : ReceiveError → String
  | .oldOrDuplicate pn =>
    s!"recevedPacketTracker BUG: ReceivedPacket called for old / duplicate packet {pn}"
  | .zeroRTTAfter1RTT pn lowest =>
    s!"received packet number {pn} on a 0-RTT packet after receiving {lowest} on a 1-RTT packet"
  | .panic => "runtime error"

/-- `receivedPacketTracker`. -/
structure ReceivedPacketTracker where
  ect0 : Nat
  ect1 : Nat
  ecnce : Nat
  packetHistory : ReceivedPacketHistory
  lastAck : Option AckFrame
  hasNewAck : Bool
  deriving DecidableEq, Repr

namespace ReceivedPacketTracker

/-- `newReceivedPacketTracker`. -/
def new : ReceivedPacketTracker := ⟨0, 0, 0, .new, none, false⟩

/-- The ECN counters of `ReceivedPacket`. -/
def countECN (t : ReceivedPacketTracker) : ECN → ReceivedPacketTracker
  | .ect0 => { t with ect0 := t.ect0 + 1 }
  | .ect1 => { t with ect1 := t.ect1 + 1 }
  | .ce => { t with ecnce := t.ecnce + 1 }
  | .unsupported | .non => t

def receivedPacket (t : ReceivedPacketTracker) (pn : Int) (ecn : ECN) (ackEliciting : Bool) :
    Except ReceiveError ReceivedPacketTracker :=
  if (t.packetHistory.receivedPacket pn).2 = false then .error (.oldOrDuplicate pn)
  else
    let t' := { t with packetHistory := (t.packetHistory.receivedPacket pn).1 }.countECN ecn
    .ok (if ackEliciting then { t' with hasNewAck := true } else t')

/-- The frame `GetAckFrame` fills in. -/
def ackFrame (t : ReceivedPacketTracker) : AckFrame :=
  { (t.lastAck.getD .empty).reset with
    ect0 := t.ect0, ect1 := t.ect1, ecnce := t.ecnce
    ackRanges := t.packetHistory.appendAckRanges }

def getAckFrame (t : ReceivedPacketTracker) : ReceivedPacketTracker × Option AckFrame :=
  if t.hasNewAck then ({ t with lastAck := some t.ackFrame, hasNewAck := false }, some t.ackFrame)
  else (t, none)

def isPotentiallyDuplicate (t : ReceivedPacketTracker) (pn : Int) : Bool :=
  t.packetHistory.isPotentiallyDuplicate pn

end ReceivedPacketTracker

/-- `packetsBeforeAck`: ack-eliciting packets received before sending an ACK. -/
def packetsBeforeAck : Nat := 2

/-- `appDataReceivedPacketTracker`. -/
structure AppDataReceivedPacketTracker extends ReceivedPacketTracker where
  largestObservedRcvdTime : Int
  largestObserved : Int
  ignoreBelow : Int
  maxAckDelay : Int
  ackQueued : Bool
  ackElicitingPacketsReceivedSinceLastAck : Nat
  ackAlarm : Int
  deriving DecidableEq, Repr

namespace AppDataReceivedPacketTracker

/-- `newAppDataReceivedPacketTracker`. -/
def new : AppDataReceivedPacketTracker :=
  { ReceivedPacketTracker.new with
    largestObservedRcvdTime := 0, largestObserved := 0, ignoreBelow := 0,
    maxAckDelay := UQuic.maxAckDelay, ackQueued := false,
    ackElicitingPacketsReceivedSinceLastAck := 0, ackAlarm := 0 }

/-- `isMissing`: was `p` reported missing in the last ACK? -/
def isMissing (t : AppDataReceivedPacketTracker) (p : Int) : Option Bool :=
  match t.lastAck with
  | none => some false
  | some ack =>
    if p < t.ignoreBelow then some false
    else do
      let largest ← ack.largestAcked
      if p < largest then
        let acked ← ack.acksPacket p
        return !acked
      else return false

def hasNewMissingPackets (t : AppDataReceivedPacketTracker) : Option Bool :=
  match t.lastAck with
  | none => some false
  | some ack => do
      let largest ← ack.largestAcked
      return decide (largest + 1 < t.packetHistory.getHighestAckRange.smallest) &&
        t.packetHistory.getHighestAckRange.len == 1

def shouldQueueACK (t : AppDataReceivedPacketTracker) (ecn : ECN) (wasMissing : Bool) :
    Option Bool :=
  if t.lastAck.isNone then some true
  else if wasMissing then some true
  else if packetsBeforeAck ≤ t.ackElicitingPacketsReceivedSinceLastAck then some true
  else do
    let missing ← t.hasNewMissingPackets
    return missing || ecn == .ce

/-- The counter of `ReceivedPacket`. -/
def countEliciting (t : AppDataReceivedPacketTracker) : AppDataReceivedPacketTracker :=
  { t with
    ackElicitingPacketsReceivedSinceLastAck := t.ackElicitingPacketsReceivedSinceLastAck + 1 }

/-- Queue an ACK, or make sure that the ACK timer runs. -/
def setACK (t : AppDataReceivedPacketTracker) (queue : Bool) (rcvTime : Int) :
    AppDataReceivedPacketTracker :=
  if queue then { t with ackQueued := true, ackAlarm := 0 }
  else if t.ackQueued then t
  else { t with ackAlarm := rcvTime + t.maxAckDelay }

/-- `!h.ackQueued && h.shouldQueueACK(…)`. -/
def queueDecision (t : AppDataReceivedPacketTracker) (ecn : ECN) (wasMissing : Bool) :
    Option Bool :=
  if t.ackQueued then some false else t.shouldQueueACK ecn wasMissing

/-- The ACK decision of `ReceivedPacket`, taken for ack-eliciting packets. -/
def queueACK (t : AppDataReceivedPacketTracker) (pn : Int) (ecn : ECN) (rcvTime : Int) :
    Option AppDataReceivedPacketTracker := do
  let missing ← t.countEliciting.isMissing pn
  let queue ← t.countEliciting.queueDecision ecn missing
  return t.countEliciting.setACK queue rcvTime

def receivedPacket (t : AppDataReceivedPacketTracker) (pn : Int) (ecn : ECN) (rcvTime : Int)
    (ackEliciting : Bool) : Except ReceiveError AppDataReceivedPacketTracker :=
  match t.toReceivedPacketTracker.receivedPacket pn ecn ackEliciting with
  | .error e => .error e
  | .ok base =>
    let t := { t with toReceivedPacketTracker := base }
    let t := if t.largestObserved ≤ pn then
        { t with largestObserved := pn, largestObservedRcvdTime := rcvTime } else t
    if ackEliciting then
      match t.queueACK pn ecn rcvTime with
      | some t => .ok t
      | none => .error .panic
    else .ok t

/-- `IgnoreBelow`: packets below `pn` will not be acknowledged. -/
def setIgnoreBelow (t : AppDataReceivedPacketTracker) (pn : Int) : AppDataReceivedPacketTracker :=
  if pn ≤ t.ignoreBelow then t
  else { t with ignoreBelow := pn, packetHistory := t.packetHistory.deleteBelow pn }

def getAckFrame (t : AppDataReceivedPacketTracker) (now : Int) (onlyIfQueued : Bool) :
    AppDataReceivedPacketTracker × Option AckFrame :=
  if onlyIfQueued && !t.ackQueued && (isZeroTime t.ackAlarm || decide (now < t.ackAlarm)) then
    (t, none)
  else
    match t.toReceivedPacketTracker.getAckFrame with
    | (_, none) => (t, none)
    | (base, some ack) =>
      let ack := { ack with delayTime := max 0 (now - t.largestObservedRcvdTime) }
      ({ t with
          toReceivedPacketTracker := { base with lastAck := some ack }
          ackQueued := false, ackAlarm := 0, ackElicitingPacketsReceivedSinceLastAck := 0 },
        some ack)

def getAlarmTimeout (t : AppDataReceivedPacketTracker) : Int := t.ackAlarm

end AppDataReceivedPacketTracker

/-! ## The invariant of a tracker -/

/-- `R` holds of every packet number the tracker has recorded; when an ACK is
due there is a range to report; the last frame sent reported one. -/
structure TrackerInv (R : Int → Prop) (t : ReceivedPacketTracker) : Prop where
  wf : t.packetHistory.WF
  received : ∀ p, Covers t.packetHistory.ranges p → R p
  due : t.hasNewAck = true → t.packetHistory.ranges ≠ []
  lastAck : ∀ a, t.lastAck = some a → a.ackRanges ≠ []

theorem TrackerInv.mono {R R' : Int → Prop} {t : ReceivedPacketTracker} (h : TrackerInv R t)
    (hR : ∀ p, R p → R' p) : TrackerInv R' t :=
  ⟨h.wf, fun p hp => hR p (h.received p hp), h.due, h.lastAck⟩

variable {a : AckFrame} {pn : Int} {ecn : ECN} {ae : Bool}

namespace ReceivedPacketTracker

variable {R : Int → Prop} {t : ReceivedPacketTracker} {h : ReceivedPacketHistory}
  {t' : ReceivedPacketTracker}

theorem inv_new : TrackerInv R .new where
  wf := ReceivedPacketHistory.wf_new
  received _ h := absurd h covers_nil
  due h := absurd h Bool.false_ne_true
  lastAck _ h := nomatch h

@[simp] theorem countECN_packetHistory (t : ReceivedPacketTracker) (ecn : ECN) :
    (t.countECN ecn).packetHistory = t.packetHistory := by cases ecn <;> rfl

@[simp] theorem countECN_lastAck (t : ReceivedPacketTracker) (ecn : ECN) :
    (t.countECN ecn).lastAck = t.lastAck := by cases ecn <;> rfl

@[simp] theorem countECN_hasNewAck (t : ReceivedPacketTracker) (ecn : ECN) :
    (t.countECN ecn).hasNewAck = t.hasNewAck := by cases ecn <;> rfl

theorem receivedPacket_ok (h : t.receivedPacket pn ecn ae = .ok t') :
    (t.packetHistory.receivedPacket pn).2 = true ∧
      t'.packetHistory = (t.packetHistory.receivedPacket pn).1 ∧
      t'.lastAck = t.lastAck ∧ (t'.hasNewAck = true ↔ t.hasNewAck = true ∨ ae = true) := by
  unfold receivedPacket at h
  by_cases hnew : (t.packetHistory.receivedPacket pn).2 = false
  · rw [if_pos hnew] at h
    cases h
  · rw [if_neg hnew] at h
    refine ⟨by simpa using hnew, ?_⟩
    cases ae with
    | false | true =>
      cases h
      simp

theorem receivedPacket_inv
    (hi : TrackerInv R t) (hR : R pn) (h : t.receivedPacket pn ecn ae = .ok t') :
    TrackerInv R t' := by
  obtain ⟨hnew, hh, hlast, -⟩ := receivedPacket_ok h
  refine ⟨?_, ?_, ?_, ?_⟩
  · rw [hh]
    exact ReceivedPacketHistory.wf_receivedPacket hi.wf pn
  · intro p hp
    rw [hh] at hp
    rcases ReceivedPacketHistory.covers_receivedPacket hi.wf pn p hp with hc | ⟨rfl, -⟩
    · exact hi.received p hc
    · exact hR
  · intro _
    rw [hh]
    exact ReceivedPacketHistory.receivedPacket_ranges_ne_nil hi.wf pn hnew
  · rw [hlast]
    exact hi.lastAck

/-- The frame reports the ranges of the history, highest first. -/
@[simp] theorem ackFrame_ackRanges (t : ReceivedPacketTracker) :
    t.ackFrame.ackRanges = t.packetHistory.appendAckRanges := rfl

theorem appendAckRanges_eq_nil : h.appendAckRanges = [] ↔ h.ranges = [] := by
  simp [ReceivedPacketHistory.appendAckRanges]

/-- A frame built from a well-formed, non-empty history is valid. -/
theorem valid_of_ackRanges (wf : h.WF)
    (hne : h.ranges ≠ []) (ha : a.ackRanges = h.appendAckRanges) : a.Valid := by
  refine ⟨fun hnil => hne (appendAckRanges_eq_nil.mp (ha ▸ hnil)), ?_, ?_⟩
  · intro r hr
    rw [ha] at hr
    obtain ⟨q, hq, rfl⟩ := List.mem_map.mp hr
    exact wf.normal.nonempty q (List.mem_reverse.mp hq)
  · rw [ha, ReceivedPacketHistory.appendAckRanges, List.pairwise_map, List.pairwise_reverse]
    exact wf.normal.sep

theorem covers_of_acks
    (ha : a.ackRanges = h.appendAckRanges) {p : Int} (hp : a.Acks p) : Covers h.ranges p := by
  obtain ⟨r, hr, hrp⟩ := hp
  rw [ha] at hr
  obtain ⟨q, hq, rfl⟩ := List.mem_map.mp hr
  exact ⟨q, List.mem_reverse.mp hq, hrp⟩

theorem getAckFrame_some (h : t.getAckFrame = (t', some a)) :
    t.hasNewAck = true ∧ a = t.ackFrame ∧
      t' = { t with lastAck := some t.ackFrame, hasNewAck := false } := by
  unfold getAckFrame at h
  split_ifs at h with hnew
  · cases h
    exact ⟨hnew, rfl, rfl⟩
  · cases h

theorem getAckFrame_none (h : t.getAckFrame = (t', none)) : t' = t := by
  unfold getAckFrame at h
  split_ifs at h
  · cases h
  · cases h
    rfl

theorem getAckFrame_valid (hi : TrackerInv R t)
    (h : t.getAckFrame = (t', some a)) : a.Valid ∧ ∀ p, a.Acks p → R p := by
  obtain ⟨hnew, rfl, -⟩ := getAckFrame_some h
  exact ⟨valid_of_ackRanges hi.wf (hi.due hnew) rfl,
    fun p hp => hi.received p (covers_of_acks rfl hp)⟩

theorem getAckFrame_inv (hi : TrackerInv R t) : TrackerInv R t.getAckFrame.1 := by
  cases h : t.getAckFrame with
  | mk t' a =>
    cases a with
    | none =>
      obtain rfl := getAckFrame_none h
      exact hi
    | some a =>
      obtain ⟨hnew, -, rfl⟩ := getAckFrame_some h
      refine ⟨hi.wf, hi.received, fun hf => absurd hf Bool.false_ne_true, ?_⟩
      rintro _ ⟨⟩
      exact fun hnil => hi.due hnew (appendAckRanges_eq_nil.mp hnil)

end ReceivedPacketTracker

namespace AppDataReceivedPacketTracker

variable {R : Int → Prop} {t : AppDataReceivedPacketTracker} {onlyIfQueued : Bool}
  {t' : AppDataReceivedPacketTracker} {rcvTime : Int}

/-- The invariant of the application data tracker: that of its base, and the
ignore limit is the history's deletion limit. -/
structure Inv (R : Int → Prop) (t : AppDataReceivedPacketTracker) : Prop where
  base : TrackerInv R t.toReceivedPacketTracker
  limit : t.ignoreBelow = t.packetHistory.deletedBelow

theorem inv_new : Inv R .new := ⟨ReceivedPacketTracker.inv_new, rfl⟩

/-- The ACK decision touches only the ACK state. -/
theorem queueACK_frame (h : t.queueACK pn ecn rcvTime = some t') :
    t'.toReceivedPacketTracker = t.toReceivedPacketTracker ∧ t'.ignoreBelow = t.ignoreBelow := by
  simp only [queueACK, Option.bind_eq_bind, Option.bind_eq_some_iff, Option.pure_def,
    Option.some.injEq] at h
  obtain ⟨_, _, queue, _, rfl⟩ := h
  unfold setACK
  split_ifs <;> exact ⟨rfl, rfl⟩

theorem receivedPacket_ok (h : t.receivedPacket pn ecn rcvTime ae = .ok t') :
    t.toReceivedPacketTracker.receivedPacket pn ecn ae = .ok t'.toReceivedPacketTracker ∧
      t'.ignoreBelow = t.ignoreBelow := by
  unfold receivedPacket at h
  cases hb : t.toReceivedPacketTracker.receivedPacket pn ecn ae with
  | error e => simp [hb] at h
  | ok base =>
    simp only [hb] at h
    cases ae with
    | false =>
      simp only [Bool.false_eq_true, if_false] at h
      cases h
      split_ifs <;> exact ⟨rfl, rfl⟩
    | true =>
      simp only [if_true] at h
      split at h
      · rename_i hq
        cases h
        obtain ⟨h₁, h₂⟩ := queueACK_frame hq
        rw [h₁, h₂]
        split_ifs <;> exact ⟨rfl, rfl⟩
      · cases h

theorem receivedPacket_inv (hi : Inv R t) (hR : R pn)
    (h : t.receivedPacket pn ecn rcvTime ae = .ok t') : Inv R t' := by
  obtain ⟨hb, hlim⟩ := receivedPacket_ok h
  refine ⟨ReceivedPacketTracker.receivedPacket_inv hi.base hR hb, ?_⟩
  obtain ⟨-, hh, -, -⟩ := ReceivedPacketTracker.receivedPacket_ok hb
  rw [hlim, hh, ReceivedPacketHistory.receivedPacket_deletedBelow]
  exact hi.limit

/-- Raising the limit keeps the invariant if no ACK is due afterwards or some
recorded number reaches the limit. -/
theorem setIgnoreBelow_inv (hi : Inv R t)
    (hkeep : t.hasNewAck = true → ∃ r ∈ t.packetHistory.ranges, pn ≤ r.end_) :
    Inv R (t.setIgnoreBelow pn) := by
  unfold setIgnoreBelow
  split_ifs with hp
  · exact hi
  · have hle : t.packetHistory.deletedBelow ≤ pn := by rw [← hi.limit]; omega
    refine ⟨⟨?_, ?_, ?_, hi.base.lastAck⟩, ?_⟩
    · exact ReceivedPacketHistory.wf_deleteBelow hi.base.wf pn
    · exact fun p hc => hi.base.received p
        (ReceivedPacketHistory.covers_deleteBelow hi.base.wf pn hc)
    · exact fun hnew =>
        (ReceivedPacketHistory.deleteBelow_ranges_ne_nil hi.base.wf pn hle).mpr (hkeep hnew)
    · simp [ReceivedPacketHistory.deleteBelow, Int.not_lt.mpr hle]

/-- Raising the limit above everything recorded while an ACK is due makes the
next frame empty. -/
theorem getAckFrame_of_setIgnoreBelow (hi : Inv R t) (hdue : t.hasNewAck = true)
    (hno : ¬ ∃ r ∈ t.packetHistory.ranges, pn ≤ r.end_) (now : Int) :
    ∃ a, ((t.setIgnoreBelow pn).getAckFrame now false).2 = some a ∧ a.ackRanges = [] := by
  have hlt : t.ignoreBelow < pn := by
    obtain ⟨r, hr⟩ := List.exists_mem_of_ne_nil _ (hi.base.due hdue)
    have habove := hi.base.wf.above r.end_
      (covers_of_mem hr (contains_end (hi.base.wf.normal.nonempty r hr)))
    rw [hi.limit]
    exact habove.trans_lt (Int.not_le.mp fun hle => hno ⟨r, hr, hle⟩)
  have hempty : (t.packetHistory.deleteBelow pn).ranges = [] := by
    by_contra hne
    exact hno ((ReceivedPacketHistory.deleteBelow_ranges_ne_nil hi.base.wf pn
      (by rw [← hi.limit]; omega)).mp hne)
  simp [getAckFrame, setIgnoreBelow, Int.not_le.mpr hlt, ReceivedPacketTracker.getAckFrame, hdue,
    ReceivedPacketTracker.appendAckRanges_eq_nil, hempty]

theorem getAckFrame_some {now : Int} (h : t.getAckFrame now onlyIfQueued = (t', some a)) :
    t.hasNewAck = true ∧
      a = { t.ackFrame with delayTime := max 0 (now - t.largestObservedRcvdTime) } ∧
      t'.packetHistory = t.packetHistory ∧ t'.lastAck = some a ∧ t'.hasNewAck = false ∧
      t'.ignoreBelow = t.ignoreBelow := by
  unfold getAckFrame at h
  split_ifs at h
  · cases h
  · cases hb : t.toReceivedPacketTracker.getAckFrame with
    | mk base a' =>
      cases a' with
      | none =>
        rw [hb] at h
        cases h
      | some a' =>
        obtain ⟨hnew, rfl, rfl⟩ := ReceivedPacketTracker.getAckFrame_some hb
        rw [hb] at h
        cases h
        exact ⟨hnew, rfl, rfl, rfl, rfl, rfl⟩

theorem getAckFrame_none {now : Int}
    (h : t.getAckFrame now onlyIfQueued = (t', none)) : t' = t := by
  unfold getAckFrame at h
  split_ifs at h
  · cases h
    rfl
  · split at h
    · cases h
      rfl
    · cases h

theorem getAckFrame_valid {now : Int}
    (hi : Inv R t) (h : t.getAckFrame now onlyIfQueued = (t', some a)) :
    a.Valid ∧ ∀ p, a.Acks p → R p := by
  obtain ⟨hnew, ha, -⟩ := getAckFrame_some h
  have hranges : a.ackRanges = t.packetHistory.appendAckRanges := by rw [ha]; rfl
  exact ⟨ReceivedPacketTracker.valid_of_ackRanges hi.base.wf (hi.base.due hnew) hranges,
    fun p hp => hi.base.received p (ReceivedPacketTracker.covers_of_acks hranges hp)⟩

theorem getAckFrame_inv (hi : Inv R t) (now : Int) (onlyIfQueued : Bool) :
    Inv R (t.getAckFrame now onlyIfQueued).1 := by
  cases h : t.getAckFrame now onlyIfQueued with
  | mk t' a =>
    cases a with
    | none =>
      obtain rfl := getAckFrame_none h
      exact hi
    | some a =>
      have hv := (getAckFrame_valid hi h).1
      obtain ⟨-, -, hh, hlast, hnew, hlim⟩ := getAckFrame_some h
      refine ⟨⟨?_, ?_, ?_, ?_⟩, ?_⟩
      · rw [hh]
        exact hi.base.wf
      · rw [hh]
        exact hi.base.received
      · exact fun hf => absurd (hnew ▸ hf) Bool.false_ne_true
      · intro a' ha'
        rw [hlast] at ha'
        cases ha'
        exact hv.nonempty
      · rw [hlim, hh]
        exact hi.limit

end AppDataReceivedPacketTracker

end UQuic.AckHandler
