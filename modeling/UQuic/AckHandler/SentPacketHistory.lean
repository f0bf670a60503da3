/-
# `UQuic.AckHandler.SentPacketHistory` — the packets a space still tracks

`internal/ackhandler/sent_packet_history.go` and `packet.go`.  The tracked
packets are a sparse array: consecutive packet numbers, `none` where nothing is
tracked (any more).  A packet is found by its distance from the first entry, so
everything rests on the first entry being there and on the numbering:

    first entry  = highestPacketNumber + 1 - length
    entry i      = none, or the packet with number (first entry) + i

`WF` states this and that `numOutstanding` counts the outstanding entries.

## What is proved

Sending keeps `WF` (the `_meets` lemmas).  Removing an entry (`Remove`, `DeclareLost`)
keeps `WF`, takes exactly that entry and possibly skipped numbers before it, and never
runs into one of its panics — in particular not into a negative number of outstanding
packets.  Its effect on sums over the entries is stated once, for every weight that
skipped numbers do not carry (`Removes.sum`).

Loops of the source range over the entries while removing the one they are at.
Removal only clears the entry itself and entries before it and moves the start
of the slice, so such a loop sees the entries as they were when it started.
-/
import UQuic.Protocol
import UQuic.Lib.Except

namespace UQuic.AckHandler

open List

/-- A panic or an error of the sent packet handler. -/
inductive Failure
  /-- `negative bytes_in_flight`. -/
  | negativeBytesInFlight
  /-- `negative number of outstanding packets`. -/
  | negativeOutstanding
  /-- `non-sequential packet number use`. -/
  | nonSequential
  /-- `remove failed`. -/
  | removeFailed
  /-- `no frames`. -/
  | noFrames
  /-- A nil pointer, or an index outside a slice. -/
  | nilDereference
  /-- `Cannot drop keys for encryption level`. -/
  | cannotDropKeys (encLevel : EncryptionLevel)
  /-- `packet … not found in sent packet history`. -/
  | notFound (pn : Int)
  /-- `received ACK for an unsent packet`. -/
  | ackForUnsent
  /-- `received an ACK for skipped packet number`. -/
  | ackForSkipped (pn : Int) (encLevel : EncryptionLevel)
  /-- `BUG: ackhandler would have acked wrong packet`. -/
  | ackedWrongPacket (pn : Int)
  /-- `BUG: PTO fired, but bytes_in_flight is 0 and Initial and Handshake already dropped`. -/
  | ptoWithoutSpace
  /-- `PTO timer in unexpected encryption level`. -/
  | unexpectedPTO (encLevel : EncryptionLevel)
  deriving DecidableEq, Repr

/-- Any failure other than a counter that would turn negative. -/
def Failure.CountersHold (e : Failure) : Prop :=
  e ≠ .negativeBytesInFlight ∧ e ≠ .negativeOutstanding

instance (e : Failure) : Decidable e.CountersHold := instDecidableAnd

/-- A frame handed to `SentPacket`: which one it is, and whether it has a handler
to tell about its fate. -/
structure Frame where
  frame : Nat
  hasHandler : Bool
  deriving DecidableEq, Repr

/-- `packet`.  `encryptionLevel` is `none` for Go's zero value. -/
structure Packet where
  sendTime : Int
  packetNumber : Int
  streamFrames : List Frame
  frames : List Frame
  largestAcked : Int
  length : Nat
  encryptionLevel : Option EncryptionLevel
  isPathMTUProbePacket : Bool
  includedInBytesInFlight : Bool
  declaredLost : Bool
  skippedPacket : Bool
  isPathProbePacket : Bool
  deriving DecidableEq, Repr

namespace Packet

def outstanding (p : Packet) : Bool :=
  !p.declaredLost && !p.skippedPacket && !p.isPathMTUProbePacket && !p.isPathProbePacket

/-- A packet with only its number set. -/
def zero (pn : Int) : Packet :=
  ⟨0, pn, [], [], 0, 0, none, false, false, false, false, false⟩

/-- The bytes a packet contributes to `bytesInFlight`. -/
def inFlight (p : Packet) : Nat := if p.includedInBytesInFlight then p.length else 0

end Packet

/-- `sentPacketHistory`. -/
structure SentPacketHistory where
  packets : List (Option Packet)
  pathProbePackets : List Packet
  numOutstanding : Int
  highestPacketNumber : Int
  deriving DecidableEq, Repr

namespace SentPacketHistory

/-- `newSentPacketHistory`. -/
def new : SentPacketHistory := ⟨[], [], 0, invalidPacketNumber⟩

def checkSequentialPacketNumberUse (h : SentPacketHistory) (pn : Int) :
    Except Failure SentPacketHistory :=
  if h.highestPacketNumber ≠ invalidPacketNumber ∧ pn ≠ h.highestPacketNumber + 1 then
    .error .nonSequential
  else .ok { h with highestPacketNumber := pn }

def push (h : SentPacketHistory) (p : Option Packet) : SentPacketHistory :=
  { h with packets := h.packets ++ [p] }

def skippedPacket (h : SentPacketHistory) (pn : Int) : Except Failure SentPacketHistory :=
  (h.checkSequentialPacketNumberUse pn).map
    (·.push (some { Packet.zero pn with skippedPacket := true }))

def sentNonAckElicitingPacket (h : SentPacketHistory) (pn : Int) :
    Except Failure SentPacketHistory :=
  (h.checkSequentialPacketNumberUse pn).map fun h => if h.packets = [] then h else h.push none

def sentAckElicitingPacket (h : SentPacketHistory) (p : Packet) :
    Except Failure SentPacketHistory :=
  (h.checkSequentialPacketNumberUse p.packetNumber).map fun h =>
    { h.push (some p) with
      numOutstanding := if p.outstanding then h.numOutstanding + 1 else h.numOutstanding }

def sentPathProbePacket (h : SentPacketHistory) (p : Packet) : Except Failure SentPacketHistory :=
  (h.checkSequentialPacketNumberUse p.packetNumber).map fun h =>
    { h.push (some { Packet.zero p.packetNumber with isPathProbePacket := true }) with
      pathProbePackets := h.pathProbePackets ++ [p] }

/-- The entries of a list of packets and gaps. -/
def entriesOf (packets : List (Option Packet)) : List Packet := packets.filterMap id

/-- `Packets`: what an iteration yields. -/
def entries (h : SentPacketHistory) : List Packet := entriesOf h.packets

def hasOutstandingPackets (h : SentPacketHistory) : Bool := 0 < h.numOutstanding

def hasOutstandingPathProbes (h : SentPacketHistory) : Bool := !h.pathProbePackets.isEmpty

def firstOutstanding (h : SentPacketHistory) : Option Packet :=
  if h.hasOutstandingPackets then h.entries.find? (·.outstanding) else none

def firstOutstandingPathProbe (h : SentPacketHistory) : Option Packet := h.pathProbePackets.head?

/-- `getIndex`; a gap at the start would be a nil dereference. -/
def getIndex (h : SentPacketHistory) (pn : Int) : Except Failure (Option Nat) :=
  match h.packets with
  | [] => .ok none
  | none :: _ => .error .nilDereference
  | some first :: rest =>
    if pn < first.packetNumber then .ok none
    else if (rest.length : Int) < pn - first.packetNumber then .ok none
    else .ok (some (pn - first.packetNumber).toNat)

/-- `cleanupStart`: drop the gaps at the start. -/
def cleanupStart (packets : List (Option Packet)) : List (Option Packet) :=
  packets.dropWhile Option.isNone

/-- The number of outstanding packets after `p` is gone. -/
def countDown (n : Int) (p : Packet) : Except Failure Int :=
  if p.outstanding then if n - 1 < 0 then .error .negativeOutstanding else .ok (n - 1) else .ok n

/-- The loop of `Remove` that clears the skipped numbers directly before index
`idx`; it returns the index it stops at. -/
def clearSkipped (packets : List (Option Packet)) : Nat → List (Option Packet) × Nat
  | 0 => (packets, 0)
  | idx + 1 =>
    match packets[idx]? with
    | some (some p) =>
      if p.skippedPacket then clearSkipped (packets.set idx none) idx else (packets, idx)
    | _ => (packets, idx)

/-- The start is cleaned up if the loop got there. -/
def settle (packets : List (Option Packet)) (idx : Nat) : List (Option Packet) :=
  if idx = 0 then cleanupStart packets else packets

/-- `Remove`, once the entry is found. -/
def removeAt (h : SentPacketHistory) (idx : Nat) (p : Packet) : Except Failure SentPacketHistory :=
  (countDown h.numOutstanding p).bind fun n =>
    let cleared := clearSkipped (h.packets.set idx none) idx
    if (settle cleared.1 cleared.2).head? = some none then .error .removeFailed
    else .ok { h with packets := settle cleared.1 cleared.2, numOutstanding := n }

def remove (h : SentPacketHistory) (pn : Int) : Except Failure SentPacketHistory :=
  (h.getIndex pn).bind fun
    | none => .error (.notFound pn)
    | some idx =>
      match h.packets[idx]? with
      | some (some p) => h.removeAt idx p
      | _ => .error .nilDereference

/-- `DeclareLost`, once the entry is found. -/
def declareLostAt (h : SentPacketHistory) (idx : Nat) (p : Packet) :
    Except Failure SentPacketHistory :=
  (countDown h.numOutstanding p).bind fun n =>
    .ok { h with packets := settle (h.packets.set idx none) idx, numOutstanding := n }

def declareLost (h : SentPacketHistory) (pn : Int) : Except Failure SentPacketHistory :=
  (h.getIndex pn).bind fun
    | none => .ok h
    | some idx =>
      match h.packets[idx]? with
      | some (some p) => h.declareLostAt idx p
      | _ => .error .nilDereference

/-- `RemovePathProbe`: the probe that was there, if one was. -/
def removePathProbe (h : SentPacketHistory) (pn : Int) : SentPacketHistory × Option Packet :=
  ({ h with pathProbePackets := h.pathProbePackets.eraseP fun p => p.packetNumber = pn },
    h.pathProbePackets.find? fun p => p.packetNumber = pn)

/-! ## Lists of packets and gaps -/

def total (w : Packet → Nat) (packets : List (Option Packet)) : Nat :=
  ((entriesOf packets).map w).sum

/-- Entry `i` has number `n + i`. -/
def Numbered (n : Int) (packets : List (Option Packet)) : Prop :=
  ∀ (i : Nat) (p : Packet), packets[i]? = some (some p) → p.packetNumber = n + i

variable {w : Packet → Nat} {packets : List (Option Packet)} {p q : Packet} {idx : Nat} {n : Int}

theorem mem_entriesOf : q ∈ entriesOf packets ↔ ∃ i : Nat, packets[i]? = some (some q) := by
  simp only [entriesOf, mem_filterMap, id, exists_eq_right]
  exact mem_iff_getElem?

@[simp] theorem entriesOf_cons_some : entriesOf (some p :: packets) = p :: entriesOf packets := rfl

@[simp] theorem entriesOf_append {l l' : List (Option Packet)} :
    entriesOf (l ++ l') = entriesOf l ++ entriesOf l' := filterMap_append

@[simp] theorem total_nil : total w [] = 0 := rfl

@[simp] theorem total_cons_none : total w (none :: packets) = total w packets := rfl

@[simp] theorem total_cons_some : total w (some p :: packets) = w p + total w packets := by
  simp [total]

@[simp] theorem total_append {l l' : List (Option Packet)} :
    total w (l ++ l') = total w l + total w l' := by
  simp [total]

/-- Taking one entry out takes its weight out. -/
theorem total_set_none : ∀ {packets : List (Option Packet)} {idx : Nat},
    packets[idx]? = some (some p) → total w (packets.set idx none) + w p = total w packets
  | [], _, h => by simp at h
  | x :: l, 0, h => by
    obtain rfl : x = some p := by simpa using h
    simp [Nat.add_comm]
  | x :: l, idx + 1, h => by
    have ih : total w (l.set idx none) + w p = total w l := total_set_none (by simpa using h)
    cases x with
    | none => simpa using ih
    | some q =>
      simp only [set_cons_succ, total_cons_some]
      omega

/-- An entry's weight is part of the total. -/
theorem le_total_of_mem (h : q ∈ entriesOf packets) : w q ≤ total w packets := by
  obtain ⟨i, hi⟩ := mem_entriesOf.mp h
  have := total_set_none (w := w) hi
  omega

theorem numbered_cons {x : Option Packet} :
    Numbered n (x :: packets) ↔ (∀ p, x = some p → p.packetNumber = n) ∧
    Numbered (n + 1) packets := by
  constructor
  · intro h
    refine ⟨fun p hx => by simpa using h 0 p (by simp [hx]), fun i p hp => ?_⟩
    have := h (i + 1) p (by simpa using hp)
    simp only [Int.natCast_add] at this
    omega
  · rintro ⟨hx, h⟩ i p hp
    cases i with
    | zero => simpa using hx p (by simpa using hp)
    | succ i =>
      have := h i p (by simpa using hp)
      simp only [Int.natCast_add]
      omega

theorem numbered_set_none (h : Numbered n packets) (idx : Nat) :
    Numbered n (packets.set idx none) := by
  intro i p hp
  rw [List.getElem?_set] at hp
  split at hp
  · split_ifs at hp
    cases hp
  · exact h i p hp

theorem getElem?_set_none {j : Nat} (hj : j ≠ idx) : (packets.set idx none)[j]? = packets[j]? :=
  List.getElem?_set_ne (Ne.symm hj)

theorem mem_of_mem_set_none (h : q ∈ entriesOf (packets.set idx none)) : q ∈ entriesOf packets := by
  obtain ⟨i, hi⟩ := mem_entriesOf.mp h
  by_cases hne : i = idx
  · subst hne
    rw [List.getElem?_set_self'] at hi
    cases hx : packets[i]? with
    | none | some x => simp [hx] at hi
  · rw [getElem?_set_none hne] at hi
    exact mem_entriesOf.mpr ⟨i, hi⟩

/-! ### Gaps at the start -/

@[simp] theorem entriesOf_cleanupStart : ∀ (packets : List (Option Packet)),
    entriesOf (cleanupStart packets) = entriesOf packets
  | [] => rfl
  | none :: l => entriesOf_cleanupStart l
  | some _ :: _ => rfl

theorem head?_cleanupStart : ∀ (packets : List (Option Packet)),
    (cleanupStart packets).head? ≠ some none
  | [] => by simp [cleanupStart]
  | none :: l => head?_cleanupStart l
  | some _ :: _ => by simp [cleanupStart]

/-- Dropping gaps moves the first number by as much as the length. -/
theorem numbered_cleanupStart : ∀ {packets : List (Option Packet)} {n : Int}, Numbered n packets →
    Numbered (n + packets.length - (cleanupStart packets).length) (cleanupStart packets)
  | [], n, _ => by
    intro i p h
    simp [cleanupStart] at h
  | none :: l, n, hn => by
    have ih := numbered_cleanupStart (numbered_cons.mp hn).2
    show Numbered (n + ((none :: l).length : Nat) - (cleanupStart l).length) (cleanupStart l)
    have heq : n + (((none : Option Packet) :: l).length : Nat) - ((cleanupStart l).length : Int) =
        n + 1 + (l.length : Int) - (cleanupStart l).length := by
      simp only [length_cons, Int.natCast_add]
      omega
    rw [heq]
    exact ih
  | some q :: l, n, hn => by
    show Numbered (n + ((some q :: l).length : Nat) - ((some q :: l).length : Nat)) (some q :: l)
    rw [Int.add_sub_cancel]
    exact hn

/-! ### Skipped numbers -/

/-- One round of the loop: it clears a skipped number and goes on, or stops. -/
theorem clearSkipped_succ (idx : Nat) (packets : List (Option Packet)) :
    (∃ p, packets[idx]? = some (some p) ∧ p.skippedPacket = true ∧
      clearSkipped packets (idx + 1) = clearSkipped (packets.set idx none) idx) ∨
    clearSkipped packets (idx + 1) = (packets, idx) := by
  simp only [clearSkipped]
  split
  · rename_i p hp
    split_ifs with hskip
    · exact .inl ⟨p, hp, hskip, rfl⟩
    · exact .inr rfl
  · exact .inr rfl

theorem length_clearSkipped : ∀ (idx : Nat) (packets : List (Option Packet)),
    (clearSkipped packets idx).1.length = packets.length
  | 0, _ => rfl
  | idx + 1, packets => by
    rcases clearSkipped_succ idx packets with ⟨p, -, -, heq⟩ | heq
    · rw [heq, length_clearSkipped idx, length_set]
    · rw [heq]

theorem clearSkipped_le : ∀ (idx : Nat) (packets : List (Option Packet)),
    (clearSkipped packets idx).2 ≤ idx
  | 0, _ => le_rfl
  | idx + 1, packets => by
    rcases clearSkipped_succ idx packets with ⟨p, -, -, heq⟩ | heq
    · rw [heq]
      exact Nat.le_succ_of_le (clearSkipped_le idx _)
    · rw [heq]
      exact Nat.le_succ _

theorem clearSkipped_lt (idx : Nat) (packets : List (Option Packet)) :
    (clearSkipped packets (idx + 1)).2 < idx + 1 := by
  rcases clearSkipped_succ idx packets with ⟨p, -, -, heq⟩ | heq
  · rw [heq]
    exact Nat.lt_succ_of_le (clearSkipped_le idx _)
  · rw [heq]
    exact Nat.lt_succ_self _

/-- The loop touches only what lies between where it stops and where it
started. -/
theorem getElem?_clearSkipped : ∀ (idx : Nat) (packets : List (Option Packet)) (j : Nat),
    idx ≤ j ∨ (j ≤ (clearSkipped packets idx).2 ∧ 0 < (clearSkipped packets idx).2) →
      (clearSkipped packets idx).1[j]? = packets[j]?
  | 0, _, _, _ => rfl
  | idx + 1, packets, j, hj => by
    rcases clearSkipped_succ idx packets with ⟨p, -, -, heq⟩ | heq
    · rw [heq] at hj ⊢
      rw [getElem?_clearSkipped idx (packets.set idx none) j (by omega)]
      refine getElem?_set_none ?_
      rintro rfl
      cases j with
      | zero =>
        have := clearSkipped_le 0 (packets.set 0 none)
        omega
      | succ j =>
        have := clearSkipped_lt j (packets.set (j + 1) none)
        omega
    · rw [heq]

theorem numbered_clearSkipped : ∀ (idx : Nat) {packets : List (Option Packet)},
    Numbered n packets → Numbered n (clearSkipped packets idx).1
  | 0, _, h => h
  | idx + 1, packets, h => by
    rcases clearSkipped_succ idx packets with ⟨p, -, -, heq⟩ | heq
    · rw [heq]
      exact numbered_clearSkipped idx (numbered_set_none h idx)
    · rw [heq]
      exact h

theorem mem_of_mem_clearSkipped : ∀ (idx : Nat) {packets : List (Option Packet)},
    q ∈ entriesOf (clearSkipped packets idx).1 → q ∈ entriesOf packets
  | 0, _, h => h
  | idx + 1, packets, h => by
    rcases clearSkipped_succ idx packets with ⟨p, -, -, heq⟩ | heq
    · rw [heq] at h
      exact mem_of_mem_set_none (mem_of_mem_clearSkipped idx h)
    · rw [heq] at h
      exact h

/-- Skipped numbers weigh nothing, so clearing them changes no total. -/
theorem total_clearSkipped : ∀ (idx : Nat) {packets : List (Option Packet)},
    (∀ q ∈ entriesOf packets, q.skippedPacket = true → w q = 0) →
      total w (clearSkipped packets idx).1 = total w packets
  | 0, _, _ => rfl
  | idx + 1, packets, hw => by
    rcases clearSkipped_succ idx packets with ⟨p, hp, hskip, heq⟩ | heq
    · have hz := hw p (mem_entriesOf.mpr ⟨idx, hp⟩) hskip
      have hset := total_set_none (w := w) hp
      rw [heq, total_clearSkipped idx fun q hq => hw q (mem_of_mem_set_none hq)]
      omega
    · rw [heq]

/-! ### Order -/

theorem le_of_numbered (h : Numbered n packets) (hq : q ∈ entriesOf packets) :
    n ≤ q.packetNumber := by
  obtain ⟨i, hi⟩ := mem_entriesOf.mp hq
  have := h i q hi
  omega

/-- Packet numbers ascend along the entries. -/
theorem ascending_of_numbered : ∀ {packets : List (Option Packet)} {n : Int}, Numbered n packets →
    (entriesOf packets).Pairwise fun p q => p.packetNumber < q.packetNumber
  | [], _, _ => List.Pairwise.nil
  | none :: l, n, h => by
    have ih := ascending_of_numbered (numbered_cons.mp h).2
    exact ih
  | some p :: l, n, h => by
    obtain ⟨hp, hl⟩ := numbered_cons.mp h
    refine List.Pairwise.cons (fun q hq => ?_) (ascending_of_numbered hl)
    have := hp p rfl
    have := le_of_numbered hl hq
    omega

/-! ## The invariant of a history -/

/-- `1` for an outstanding packet. -/
def outstandingWeight (p : Packet) : Nat := if p.outstanding then 1 else 0

def base (h : SentPacketHistory) : Int := h.highestPacketNumber + 1 - h.packets.length

/-- What the operations keep. -/
structure WF (h : SentPacketHistory) : Prop where
  numbered : Numbered h.base h.packets
  head : h.packets.head? ≠ some none
  counted : h.numOutstanding = total outstandingWeight h.packets
  unsent : h.highestPacketNumber = invalidPacketNumber → h.packets = []
  plain : ∀ p ∈ h.entries, p.skippedPacket = true ∨ p.isPathProbePacket = true →
    p.includedInBytesInFlight = false
  probes : ∀ p ∈ h.pathProbePackets, p.includedInBytesInFlight = false

/-- The bytes a history contributes to `bytesInFlight`. -/
def inFlight (h : SentPacketHistory) : Nat := total Packet.inFlight h.packets

theorem wf_new : WF new where
  numbered _ _ h := by simp [new] at h
  head := by simp [new]
  counted := rfl
  unsent _ := rfl
  plain _ h := by cases h
  probes _ h := by cases h

/-! ### Sending -/

variable {h : SentPacketHistory} {pn : Int}

/-- A number that is used in sequence goes at the end. -/
theorem wf_push (wf : WF h) (hpn : 0 ≤ pn)
    (hseq : h.highestPacketNumber = invalidPacketNumber ∨ pn = h.highestPacketNumber + 1)
    {x : Option Packet} (hgap : x = none → h.packets ≠ [])
    (hx : ∀ p, x = some p → p.packetNumber = pn ∧
      (p.skippedPacket = true ∨ p.isPathProbePacket = true → p.includedInBytesInFlight = false))
    (hn : n = h.numOutstanding + total outstandingWeight [x])
    {probes : List Packet} (hprobes : ∀ p ∈ probes, p.includedInBytesInFlight = false) :
    WF ⟨h.packets ++ [x], probes, n, pn⟩ := by
  refine ⟨?_, ?_, ?_, ?_, ?_, hprobes⟩
  · intro i p hp
    have hlen : ((h.packets ++ [x]).length : Int) = h.packets.length + 1 := by simp
    simp only [base, hlen]
    rcases Nat.lt_or_ge i h.packets.length with hlt | hge
    · rw [List.getElem?_append_left hlt] at hp
      have hnum := wf.numbered i p hp
      simp only [base] at hnum
      rcases hseq with hinv | hseq
      · simp [wf.unsent hinv] at hlt
      · omega
    · rw [List.getElem?_append_right hge] at hp
      obtain ⟨hi, hxp⟩ := List.getElem?_eq_some_iff.mp hp
      have := (hx p (by simpa using hxp)).1
      simp at hi
      omega
  · cases hl : h.packets with
    | nil =>
      intro hhead
      exact hgap (by simpa using hhead) hl
    | cons y l =>
      intro hhead
      exact wf.head (by simpa [hl] using hhead)
  · have := wf.counted
    simp only [total_append]
    omega
  · intro hinv
    simp only [invalidPacketNumber] at hinv
    omega
  · intro p hp
    simp only [entries, entriesOf_append, mem_append] at hp
    rcases hp with hp | hp
    · exact wf.plain p hp
    · obtain rfl : x = some p := by
        cases x with
        | none => cases hp
        | some q => simpa using (mem_singleton.mp hp).symm
      exact (hx p rfl).2

theorem checkSequential_meets {f : SentPacketHistory → SentPacketHistory}
    {Q : SentPacketHistory → Prop}
    (hQ : h.highestPacketNumber = invalidPacketNumber ∨ pn = h.highestPacketNumber + 1 →
      Q (f { h with highestPacketNumber := pn })) :
    ((h.checkSequentialPacketNumberUse pn).map f).Meets Q Failure.CountersHold := by
  refine Except.Meets.map ?_ fun _ h => h
  simp only [checkSequentialPacketNumberUse]
  split_ifs with hseq
  · exact ⟨nofun, nofun⟩
  · exact hQ (by omega)

theorem skippedPacket_meets (wf : WF h) (hpn : 0 ≤ pn) :
    (h.skippedPacket pn).Meets (fun h' => WF h' ∧
    h'.inFlight = h.inFlight) Failure.CountersHold := by
  refine checkSequential_meets fun hseq => ⟨?_, ?_⟩
  · refine wf_push wf hpn hseq (x := some _) (fun hx => nomatch hx) ?_ ?_ wf.probes
    · rintro p ⟨⟩
      exact ⟨rfl, fun _ => rfl⟩
    · show h.numOutstanding = h.numOutstanding + 0
      omega
  · simp [inFlight, push, Packet.zero, Packet.inFlight]

theorem sentNonAckElicitingPacket_meets (wf : WF h) (hpn : 0 ≤ pn) :
    (h.sentNonAckElicitingPacket pn).Meets (fun h' => WF h' ∧ h'.inFlight = h.inFlight)
      Failure.CountersHold := by
  refine checkSequential_meets fun hseq => ?_
  simp only
  split_ifs with hnil
  · refine ⟨{ wf with numbered := ?_, unsent := fun _ => hnil }, rfl⟩
    intro i p hp
    simp [hnil] at hp
  · refine ⟨wf_push wf hpn hseq (x := none) (fun _ => hnil)
      (fun _ hx => nomatch hx) ?_ wf.probes, ?_⟩
    · show h.numOutstanding = h.numOutstanding + 0
      omega
    · simp [inFlight, push]

theorem sentAckElicitingPacket_meets {p : Packet} (wf : WF h) (hpn : 0 ≤ p.packetNumber)
    (hp : p.skippedPacket = false ∧ p.isPathProbePacket = false) :
    (h.sentAckElicitingPacket p).Meets (fun h' => WF h' ∧ h'.inFlight = h.inFlight + p.inFlight)
      Failure.CountersHold := by
  refine checkSequential_meets fun hseq => ⟨?_, ?_⟩
  · refine wf_push wf hpn hseq (x := some _) (fun hx => nomatch hx) ?_ ?_ wf.probes
    · rintro q ⟨⟩
      refine ⟨rfl, ?_⟩
      rintro (hs | hs)
      · simp [hp.1] at hs
      · simp [hp.2] at hs
    · simp only [total_cons_some, total_nil, outstandingWeight]
      split <;> simp
  · simp [inFlight, push]

theorem sentPathProbePacket_meets {p : Packet} (wf : WF h) (hpn : 0 ≤ p.packetNumber)
    (hp : p.includedInBytesInFlight = false) :
    (h.sentPathProbePacket p).Meets (fun h' => WF h' ∧ h'.inFlight = h.inFlight)
      Failure.CountersHold := by
  refine checkSequential_meets fun hseq => ⟨?_, ?_⟩
  · refine wf_push wf hpn hseq (x := some _) (fun hx => nomatch hx) ?_ ?_ ?_
    · rintro q ⟨⟩
      exact ⟨rfl, fun _ => rfl⟩
    · show h.numOutstanding = h.numOutstanding + 0
      omega
    · intro q hq
      rcases mem_append.mp hq with hq | hq
      · exact wf.probes q hq
      · rw [mem_singleton.mp hq]
        exact hp
  · simp [inFlight, push, Packet.zero, Packet.inFlight]

/-! ### Removing -/

/-- The path probes may be cut down. -/
theorem WF.withProbes (wf : WF h) {probes : List Packet}
    (hsub : ∀ p ∈ probes, p ∈ h.pathProbePackets) : WF { h with pathProbePackets := probes } :=
  { wf with probes := fun p hp => wf.probes p (hsub p hp) }

/-- `h'` is `h` without the entry `p`, and perhaps without skipped numbers before
it. -/
structure Removes (h : SentPacketHistory) (p : Packet) (h' : SentPacketHistory) : Prop where
  wf : WF h'
  sub : ∀ q ∈ h'.entries, q ∈ h.entries
  later : ∀ q ∈ h.entries, p.packetNumber < q.packetNumber → q ∈ h'.entries
  sum : ∀ w : Packet → Nat, (∀ q ∈ h.entries, q.skippedPacket = true → w q = 0) →
    total w h'.packets + w p = total w h.packets
  probes : h'.pathProbePackets = h.pathProbePackets

theorem getIndex_eq (wf : WF h) (hp : h.packets[idx]? = some (some p)) :
    h.getIndex p.packetNumber = .ok (some idx) := by
  have hnum := wf.numbered idx p hp
  have hlen : idx < h.packets.length := (List.getElem?_eq_some_iff.mp hp).1
  simp only [getIndex]
  cases hl : h.packets with
  | nil => simp [hl] at hlen
  | cons x rest =>
    cases x with
    | none => exact absurd (by simp [hl]) wf.head
    | some first =>
      have hfirst := wf.numbered 0 first (by simp [hl])
      rw [hl, length_cons] at hlen
      simp only
      rw [if_neg (by omega), if_neg (by omega)]
      have : p.packetNumber - first.packetNumber = idx := by omega
      rw [this, Int.toNat_natCast]

/-- An outstanding entry is counted, so the count does not go below zero. -/
theorem countDown_eq (wf : WF h) (hp : p ∈ h.entries) :
    countDown h.numOutstanding p = .ok (h.numOutstanding - outstandingWeight p) := by
  have hle := le_total_of_mem (w := outstandingWeight) hp
  have hc := wf.counted
  simp only [countDown]
  split
  · rename_i hout
    have hone : outstandingWeight p = 1 := by simp [outstandingWeight, hout]
    rw [if_neg (by omega), hone]
    rfl
  · rename_i hout
    simp [outstandingWeight, hout]

theorem outstandingWeight_skipped (hq : q.skippedPacket = true) : outstandingWeight q = 0 := by
  simp [outstandingWeight, Packet.outstanding, hq]

/-- What a list keeps that lost entry `idx` and skipped numbers below it: the
list-level content of `Removes`. -/
theorem removes_of_cleared (cleared : List (Option Packet)) (stop : Nat) (wf : WF h)
    (hp : h.packets[idx]? = some (some p)) (hn : n = h.numOutstanding - outstandingWeight p)
    (hlen : cleared.length = h.packets.length) (hnum : Numbered h.base cleared)
    (hsub : ∀ q ∈ entriesOf cleared, q ∈ h.entries)
    (hlater : ∀ j, idx < j → cleared[j]? = h.packets[j]?)
    (hsum : ∀ w : Packet → Nat, (∀ q ∈ h.entries, q.skippedPacket = true → w q = 0) →
      total w cleared + w p = total w h.packets)
    (hstop : 0 < stop → cleared.head? ≠ some none) :
    Removes h p { h with packets := settle cleared stop, numOutstanding := n } := by
  have hentries : entriesOf (settle cleared stop) = entriesOf cleared := by
    simp only [settle]
    split
    · exact entriesOf_cleanupStart cleared
    · rfl
  have htotal : ∀ w, total w (settle cleared stop) = total w cleared := fun w => by
    simp only [total, hentries]
  have hwf : WF { h with packets := settle cleared stop, numOutstanding := n } := by
    refine ⟨?_, ?_, ?_, ?_, ?_, wf.probes⟩
    · simp only [settle, base]
      split
      · have := numbered_cleanupStart hnum
        simp only [base, hlen] at this
        have heq : h.highestPacketNumber + 1 - (h.packets.length : Int) + h.packets.length -
            (cleanupStart cleared).length =
            h.highestPacketNumber + 1 - (cleanupStart cleared).length := by omega
        rw [heq] at this
        exact this
      · rw [hlen]
        exact hnum
    · simp only [settle]
      split
      · exact head?_cleanupStart cleared
      · exact hstop (by omega)
    · have := hsum outstandingWeight fun q _ hq => outstandingWeight_skipped hq
      have hc := wf.counted
      show n = (total outstandingWeight (settle cleared stop) : Int)
      rw [htotal, hn, hc]
      omega
    · intro hinv
      rw [wf.unsent hinv] at hp
      simp at hp
    · intro q hq
      exact wf.plain q (hsub q (hentries ▸ hq))
  refine ⟨hwf, fun q hq => hsub q (hentries ▸ hq), ?_, fun w hw => htotal w ▸ hsum w hw, rfl⟩
  intro q hq hlt
  obtain ⟨j, hj⟩ := mem_entriesOf.mp hq
  have h₁ := wf.numbered idx p hp
  have h₂ := wf.numbered j q hj
  show q ∈ entriesOf (settle cleared stop)
  rw [hentries]
  exact mem_entriesOf.mpr ⟨j, (hlater j (by omega)).trans hj⟩

theorem remove_ok (wf : WF h) (hp : p ∈ h.entries) :
    ∃ h', h.remove p.packetNumber = .ok h' ∧ Removes h p h' := by
  obtain ⟨idx, hidx⟩ := mem_entriesOf.mp hp
  have hhead : 0 < (clearSkipped (h.packets.set idx none) idx).2 →
      (clearSkipped (h.packets.set idx none) idx).1.head? ≠ some none := by
    intro hpos
    have hle := clearSkipped_le idx (h.packets.set idx none)
    rw [List.head?_eq_getElem?, getElem?_clearSkipped _ _ 0 (.inr ⟨Nat.zero_le _, hpos⟩),
      getElem?_set_none (by omega), ← List.head?_eq_getElem?]
    exact wf.head
  have hremoves := removes_of_cleared (clearSkipped (h.packets.set idx none) idx).1
    (clearSkipped (h.packets.set idx none) idx).2 wf hidx rfl
    (by rw [length_clearSkipped, length_set])
    (numbered_clearSkipped idx (numbered_set_none wf.numbered idx))
    (fun q hq => mem_of_mem_set_none (mem_of_mem_clearSkipped idx hq))
    (fun j hj => by
      rw [getElem?_clearSkipped _ _ j (.inl hj.le), getElem?_set_none (by omega)])
    (fun w hw => by
      rw [total_clearSkipped idx fun q hq => hw q (mem_of_mem_set_none hq)]
      exact total_set_none hidx)
    hhead
  refine ⟨_, ?_, hremoves⟩
  simp only [remove, getIndex_eq wf hidx, Except.bind, hidx, removeAt, countDown_eq wf hp]
  rw [if_neg hremoves.wf.head]

theorem declareLost_ok (wf : WF h) (hp : p ∈ h.entries) :
    ∃ h', h.declareLost p.packetNumber = .ok h' ∧ Removes h p h' := by
  obtain ⟨idx, hidx⟩ := mem_entriesOf.mp hp
  have hremoves := removes_of_cleared (h.packets.set idx none) idx wf hidx rfl
    length_set (numbered_set_none wf.numbered idx) (fun q hq => mem_of_mem_set_none hq)
    (fun j hj => getElem?_set_none (by omega)) (fun w _ => total_set_none hidx)
    (by
      intro hpos
      rw [List.head?_eq_getElem?, getElem?_set_none (by omega), ← List.head?_eq_getElem?]
      exact wf.head)
  refine ⟨_, ?_, hremoves⟩
  simp only [declareLost, getIndex_eq wf hidx, Except.bind, hidx, declareLostAt, countDown_eq wf hp]

end SentPacketHistory

end UQuic.AckHandler
