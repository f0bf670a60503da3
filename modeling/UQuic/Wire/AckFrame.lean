/-
# `UQuic.Wire.AckFrame` — ACK frames and their ranges

`internal/wire/ack_range.go` and the accessors of `internal/wire/ack_frame.go`.
`LargestAcked`, `LowestAcked` and everything built on them index the first or
the last range, so they panic on a frame without ranges; here they return
`none`.
-/
import UQuic.Protocol
import UQuic.Lib.Search

namespace UQuic.Wire

open List

/-- `AckRange`. -/
structure AckRange where
  smallest : Int
  largest : Int
  deriving DecidableEq, Repr

def AckRange.len (r : AckRange) : Int := r.largest - r.smallest + 1

/-- `AckFrame`: the highest range goes first. -/
structure AckFrame where
  ackRanges : List AckRange
  delayTime : Int
  ect0 : Nat
  ect1 : Nat
  ecnce : Nat
  deriving DecidableEq, Repr

namespace AckFrame

/-- `AckFrame{}`. -/
def empty : AckFrame := ⟨[], 0, 0, 0, 0⟩

/-- `Reset`: the frame is reused, with nothing left in it. -/
def reset (_ : AckFrame) : AckFrame := empty

/-- `LargestAcked`; `none` is the index panic on a frame without ranges. -/
def largestAcked (f : AckFrame) : Option Int := f.ackRanges.head?.map (·.largest)

/-- `LowestAcked`; `none` is the index panic on a frame without ranges. -/
def lowestAcked (f : AckFrame) : Option Int := f.ackRanges.getLast?.map (·.smallest)

def hasMissingRanges (f : AckFrame) : Bool := 1 < f.ackRanges.length

/-- The index that `AcksPacket` searches for: the first range that starts at or below `p`. -/
def searchRange (f : AckFrame) (p : Int) : Nat :=
  Search.search f.ackRanges.length fun i => f.ackRanges[i]?.any fun r => decide (r.smallest ≤ p)

/-- `AcksPacket`; `none` is the panic of an index past the last range. -/
def acksPacket (f : AckFrame) (p : Int) : Option Bool := do
  let lowest ← f.lowestAcked
  let largest ← f.largestAcked
  if p < lowest ∨ largest < p then
    return false
  let r ← f.ackRanges[f.searchRange p]?
  return decide (p ≤ r.largest)

/-- `validateAckRanges`: at least one range, none inverted, and each range two
or more below its predecessor. -/
def validateAckRanges (f : AckFrame) : Bool :=
  !f.ackRanges.isEmpty && f.ackRanges.all (fun r => decide (r.smallest ≤ r.largest)) &&
    (f.ackRanges.zip f.ackRanges.tail).all fun (prev, r) =>
      !decide (prev.smallest ≤ r.smallest) && !decide (prev.smallest ≤ r.largest + 1)

/-- The frame acknowledges `p`. -/
def Acks (f : AckFrame) (p : Int) : Prop := ∃ r ∈ f.ackRanges, r.smallest ≤ p ∧ p ≤ r.largest

/-- At least one range, none inverted, strictly descending with a gap between
any two: what a sender may put on the wire. -/
structure Valid (f : AckFrame) : Prop where
  nonempty : f.ackRanges ≠ []
  ordered : ∀ r ∈ f.ackRanges, r.smallest ≤ r.largest
  descending : f.ackRanges.Pairwise fun a b => b.largest + 1 < a.smallest

/-! ## The check of the ranges -/

theorem zip_tail_of_pairwise {R : AckRange → AckRange → Prop} : ∀ {rs : List AckRange},
    rs.Pairwise R → ∀ p ∈ rs.zip rs.tail, R p.1 p.2
  | [], _, _, hp | [_], _, _, hp => nomatch hp
  | r :: s :: rs, h, p, hp => by
    obtain ⟨hr, hs⟩ := pairwise_cons.mp h
    rcases mem_cons.mp hp with rfl | hp
    · exact hr s mem_cons_self
    · exact zip_tail_of_pairwise hs p hp

theorem pairwise_of_zip_tail : ∀ {rs : List AckRange}, (∀ r ∈ rs, r.smallest ≤ r.largest) →
    (∀ p ∈ rs.zip rs.tail, p.2.largest + 1 < p.1.smallest) →
    rs.Pairwise fun a b => b.largest + 1 < a.smallest
  | [], _, _ => .nil
  | [_], _, _ => pairwise_singleton _ _
  | r :: s :: rs, hord, h => by
    obtain ⟨hrs, hzip⟩ := forall_mem_cons.mp h
    dsimp only at hrs
    obtain ⟨-, hord⟩ := forall_mem_cons.mp hord
    have hs := hord s mem_cons_self
    have htail := pairwise_of_zip_tail hord hzip
    refine pairwise_cons.mpr ⟨forall_mem_cons.mpr ⟨hrs, fun t ht => ?_⟩, htail⟩
    have := (pairwise_cons.mp htail).1 t ht
    omega

theorem validateAckRanges_iff {f : AckFrame} : f.validateAckRanges = true ↔ f.Valid := by
  simp only [AckFrame.validateAckRanges, Bool.and_eq_true, all_eq_true, decide_eq_true_eq,
    Bool.not_eq_true', isEmpty_eq_false_iff, decide_eq_false_iff_not]
  constructor
  · rintro ⟨⟨hne, hord⟩, hzip⟩
    exact ⟨hne, hord, pairwise_of_zip_tail hord fun p hp => Int.not_le.mp (hzip p hp).2⟩
  · intro h
    refine ⟨⟨h.nonempty, h.ordered⟩, fun p hp => ?_⟩
    have h1 := zip_tail_of_pairwise h.descending p hp
    have h2 := h.ordered p.2 (mem_of_mem_tail (of_mem_zip hp).2)
    omega

/-! ## A frame with a range answers every accessor -/

theorem largestAcked_isSome {f : AckFrame} (h : f.ackRanges ≠ []) :
    ∃ p, f.largestAcked = some p := by
  cases hf : f.ackRanges with
  | nil => exact absurd hf h
  | cons r rest => exact ⟨r.largest, by simp [largestAcked, hf]⟩

theorem lowestAcked_eq {f : AckFrame} (h : f.ackRanges ≠ []) :
    f.lowestAcked = some (f.ackRanges.getLast h).smallest := by
  simp [lowestAcked, List.getLast?_eq_some_getLast h]

end AckFrame

end UQuic.Wire
