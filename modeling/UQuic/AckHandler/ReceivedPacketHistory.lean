/-
# `UQuic.AckHandler.ReceivedPacketHistory` — which packet numbers were received

`internal/ackhandler/received_packet_history.go`.  The history keeps the
received packet numbers as ascending, separated ranges and a limit
`deletedBelow` under which everything counts as received.  It is bounded: once
more than `maxNumAckRanges` ranges are tracked, the lowest ones are deleted.

## What is proved

The history stands for a set, `Seen`: everything below the limit, and
everything in a range.  On a well-formed history

    IsPotentiallyDuplicate(p)  ⟺  p ∈ Seen
    ReceivedPacket(p) is new   ⟺  p ∉ Seen
    DeleteBelow                    only adds to Seen
    ReceivedPacket(p)              adds exactly p, provided it `Fits`

`Fits h p` says that recording `p` does not push the history over its bound.
The proviso is not an artefact: pruning drops a range without moving
`deletedBelow`, and then the numbers of that range are forgotten.  So a run
never processes a packet number twice **iff** every packet it records fits
(`neverTwice_iff_fitting`).  The ranges themselves are a canonical form of a set
that gains the packet, loses what is below the limit, and loses its lowest run
when it has more than `maxNumAckRanges` of them (`ranges_canonical`).
-/
import UQuic.Wire.AckFrame
import UQuic.Lib.IntRanges

namespace UQuic.AckHandler

open List
open IntRange
open UQuic.Wire (AckRange)

/-- `receivedPacketHistory`. -/
structure ReceivedPacketHistory where
  ranges : List IntRange
  deletedBelow : Int
  deriving DecidableEq, Repr

namespace ReceivedPacketHistory

/-- `newReceivedPacketHistory`. -/
def new : ReceivedPacketHistory := ⟨[], 0⟩

/-- The loop of `addToRanges`.  It walks from the highest range down, so its
argument is the list in that order; the second component says whether `p` is
new. -/
def addLoop (p : Int) : List IntRange → List IntRange × Bool
  | [] => ([⟨p, p⟩], true)
  | r :: rest =>
    if r.start ≤ p ∧ p ≤ r.end_ then (r :: rest, false)
    else if r.end_ = p - 1 then ({ r with end_ := p } :: rest, true)
    else if r.start = p + 1 then
      match rest with
      | r' :: rest' =>
        -- extending `r` downwards may close the gap to the range below
        if r'.end_ + 1 = p then ({ r' with end_ := r.end_ } :: rest', true)
        else ({ r with start := p } :: rest, true)
      | [] => ([{ r with start := p }], true)
    else if r.end_ < p then (⟨p, p⟩ :: r :: rest, true)
    else (r :: (addLoop p rest).1, (addLoop p rest).2)

def addToRanges (h : ReceivedPacketHistory) (p : Int) : ReceivedPacketHistory × Bool :=
  ({ h with ranges := (addLoop p h.ranges.reverse).1.reverse }, (addLoop p h.ranges.reverse).2)

/-- The pruning in `ReceivedPacket`: keep the highest `maxNumAckRanges` ranges. -/
def prune (h : ReceivedPacketHistory) : ReceivedPacketHistory :=
  if maxNumAckRanges < h.ranges.length then
    { h with ranges := h.ranges.drop (h.ranges.length - maxNumAckRanges) }
  else h

/-- `ReceivedPacket`: record `p`; the result says whether it is new. -/
def receivedPacket (h : ReceivedPacketHistory) (p : Int) :
    ReceivedPacketHistory × Bool :=
  if p < h.deletedBelow then (h, false)
  else ((h.addToRanges p).1.prune, (h.addToRanges p).2)

/-- The loop of `DeleteBelow` over the ranges, lowest first. -/
def deleteLoop (p : Int) : List IntRange → List IntRange
  | [] => []
  | r :: rest =>
    if r.end_ < p then deleteLoop p rest
    else if r.start < p ∧ p ≤ r.end_ then { r with start := p } :: rest
    else r :: rest

def deleteBelow (h : ReceivedPacketHistory) (p : Int) : ReceivedPacketHistory :=
  if p < h.deletedBelow then h
  else ⟨deleteLoop p h.ranges, p⟩

/-- `AppendAckRanges`, onto an empty slice: the highest range goes first. -/
def appendAckRanges (h : ReceivedPacketHistory) : List AckRange :=
  h.ranges.reverse.map fun r => ⟨r.start, r.end_⟩

def getHighestAckRange (h : ReceivedPacketHistory) : AckRange :=
  match h.ranges.getLast? with
  | some r => ⟨r.start, r.end_⟩
  | none => ⟨0, 0⟩

/-- The loop of `IsPotentiallyDuplicate`, from the highest range down. -/
def duplicateLoop (p : Int) : List IntRange → Bool
  | [] => false
  | r :: rest =>
    if r.end_ < p then false
    else if p ≤ r.end_ ∧ r.start ≤ p then true
    else duplicateLoop p rest

def isPotentiallyDuplicate (h : ReceivedPacketHistory) (p : Int) : Bool :=
  if p < h.deletedBelow then true
  else duplicateLoop p h.ranges.reverse

/-! ## The loops, one specification each -/

theorem duplicateLoop_eq_true {p : Int} :
    ∀ {l : List IntRange}, Descending l → (duplicateLoop p l = true ↔ Covers l p)
  | [], _ => by simp [duplicateLoop]
  | r :: rest, h => by
    obtain ⟨hr, hb, hd⟩ := descending_cons.mp h
    have ih := duplicateLoop_eq_true (p := p) hd
    simp only [duplicateLoop, covers_cons]
    split_ifs with h₁ h₂
    · refine ⟨False.elim, ?_⟩
      rintro (hc | hc)
      · exact absurd hc.2 (by omega)
      · exact absurd (covers_lt_of_before hb hc) (by omega)
    · exact ⟨fun _ => .inl ⟨h₂.2, h₂.1⟩, fun _ => rfl⟩
    · rw [ih]
      exact ⟨Or.inr, fun hc => hc.resolve_left fun hc => h₂ ⟨hc.2, hc.1⟩⟩

/-- What the walk of `addToRanges` does: it keeps the canonical form, adds `p` to
the set, and reports `p` as new exactly when no range held it. -/
theorem addLoop_spec {p : Int} :
    ∀ {l : List IntRange}, Descending l → Descending (addLoop p l).1 ∧
      (∀ q, Covers (addLoop p l).1 q ↔ Covers l q ∨ q = p) ∧
      ((addLoop p l).2 = true ↔ ¬ Covers l p)
  | [], _ => by
    refine ⟨descending_cons.mpr ⟨le_rfl, by simp, descending_nil⟩, fun q => ?_, ?_⟩
    · simp only [addLoop, covers_cons, covers_nil, or_false, Contains, false_or]
      omega
    · simp [addLoop]
  | r :: rest, h => by
    obtain ⟨hr, hb, hd⟩ := descending_cons.mp h
    obtain ⟨ihd, ihc, ihn⟩ := addLoop_spec (p := p) hd
    -- away from `r`, only a range below `r` could hold `p`
    have key : ¬ r.Contains p → r.start ≤ p + 1 → (True ↔ ¬ Covers (r :: rest) p) := by
      intro hnot hle
      refine ⟨fun _ hc => ?_, fun _ => trivial⟩
      rcases covers_cons.mp hc with hc | hc
      · exact hnot hc
      · have := covers_lt_of_before hb hc
        omega
    unfold addLoop
    split_ifs with h₁ h₂ h₃ h₄
    · have hp : Covers (r :: rest) p := covers_cons.mpr (.inl h₁)
      exact ⟨h, fun q => (or_iff_left_of_imp fun hq => hq ▸ hp).symm,
        by simp only [hp, not_true_eq_false]⟩
    · refine ⟨descending_cons.mpr ⟨by simp only; omega, hb, hd⟩, fun q => ?_,
        (iff_of_eq (eq_self true)).trans (key h₁ (by omega))⟩
      rw [covers_cons, covers_cons, contains_growEnd hr h₂, or_right_comm]
    · have hk := (iff_of_eq (eq_self true)).trans (key h₁ (by omega))
      cases rest with
      | nil =>
        refine ⟨descending_cons.mpr ⟨by simp only; omega, by simp, hd⟩, fun q => ?_, hk⟩
        rw [covers_cons, covers_cons, contains_growStart hr h₃, or_right_comm]
      | cons r' rest' =>
        obtain ⟨hr', hb', hd'⟩ := descending_cons.mp hd
        have hrr : r'.end_ + 1 < r.start := hb r' mem_cons_self
        dsimp only
        split_ifs with h₅
        · refine ⟨descending_cons.mpr ⟨by simp only; omega, hb', hd'⟩, fun q => ?_, hk⟩
          rw [covers_cons, covers_cons, covers_cons, contains_join hr hr' h₅ h₃, ← or_assoc,
            or_right_comm]
        · refine ⟨descending_cons.mpr ⟨by simp only; omega, ?_, hd⟩, fun q => ?_, hk⟩
          · refine before_of_covers hd.nonempty fun q hq => ?_
            show q + 1 < p
            rcases covers_cons.mp hq with hq' | hq'
            · have := hq'.2
              omega
            · have := covers_lt_of_before hb' hq'
              omega
          · rw [covers_cons, covers_cons (l := r' :: rest'),
              contains_growStart hr h₃, or_right_comm]
    · refine ⟨descending_cons.mpr ⟨le_rfl, ?_, h⟩, fun q => ?_,
        (iff_of_eq (eq_self true)).trans (key h₁ (by omega))⟩
      · refine before_of_covers h.nonempty fun q hq => ?_
        show q + 1 < p
        rcases covers_cons.mp hq with hq' | hq'
        · have := hq'.2
          omega
        · have := covers_lt_of_before hb hq'
          omega
      · rw [covers_cons, contains_singleton, or_comm]
    · refine ⟨descending_cons.mpr ⟨hr, ?_, ihd⟩, fun q => ?_, ?_⟩
      · refine before_of_covers ihd.nonempty fun q hq => ?_
        rcases (ihc q).mp hq with hq' | rfl
        · exact covers_lt_of_before hb hq'
        · omega
      · rw [covers_cons, covers_cons, ihc, or_assoc]
      · rw [covers_cons, not_or]
        exact ihn.trans ⟨fun hn => ⟨h₁, hn⟩, fun hn => hn.2⟩

/-- The walk adds at most one range, and none exactly when `p` touches a range. -/
theorem length_addLoop {p : Int} : ∀ {l : List IntRange}, Descending l →
    (addLoop p l).1.length ≤ l.length + 1 ∧
      ((addLoop p l).1.length ≤ l.length ↔ ∃ r ∈ l, r.start - 1 ≤ p ∧ p ≤ r.end_ + 1)
  | [], _ => by simp [addLoop]
  | r :: rest, h => by
    obtain ⟨hr, hb, hd⟩ := descending_cons.mp h
    obtain ⟨ih₁, ih₂⟩ := length_addLoop (p := p) hd
    have touches : r.start - 1 ≤ p ∧ p ≤ r.end_ + 1 →
        ∃ q ∈ r :: rest, q.start - 1 ≤ p ∧ p ≤ q.end_ + 1 := fun hp => ⟨r, mem_cons_self, hp⟩
    unfold addLoop
    split_ifs with h₁ h₂ h₃ h₄
    · exact ⟨by simp, iff_of_true le_rfl (touches (by omega))⟩
    · exact ⟨by simp, iff_of_true le_rfl (touches (by omega))⟩
    · have ht := touches (by omega)
      cases rest with
      | nil => exact ⟨by simp, iff_of_true le_rfl ht⟩
      | cons r' rest' =>
        dsimp only
        split_ifs with h₅ <;> exact ⟨by simp, iff_of_true (by simp) ht⟩
    · refine ⟨by simp, iff_of_false (by simp) ?_⟩
      rintro ⟨q, hq, hp₁, hp₂⟩
      rcases mem_cons.mp hq with rfl | hq'
      · omega
      · have : q.end_ + 1 < r.start := hb q hq'
        omega
    · refine ⟨by simpa using ih₁, ?_⟩
      rw [length_cons, length_cons, Nat.add_le_add_iff_right, ih₂, exists_mem_cons_iff]
      exact ⟨Or.inr, fun hq => hq.resolve_left (by omega)⟩

/-- What `DeleteBelow`'s walk does to the set: it drops everything below `p`. -/
theorem covers_deleteLoop {p : Int} :
    ∀ {l : List IntRange}, Normal l → ∀ q, (Covers (deleteLoop p l) q ↔ Covers l q ∧ p ≤ q)
  | [], _, q => by simp [deleteLoop]
  | r :: rest, h, q => by
    obtain ⟨hr, hb, hn⟩ := normal_cons.mp h
    have ih := covers_deleteLoop (p := p) hn q
    have above : Covers rest q → r.end_ + 1 < q := lt_of_covers_before hb
    unfold deleteLoop
    split_ifs with h₁ h₂
    · rw [ih, covers_cons]
      refine and_congr_left fun hq => ⟨Or.inr, fun hc => hc.resolve_left fun hc => ?_⟩
      exact absurd hc.2 (by omega)
    · simp only [covers_cons, Contains]
      constructor
      · rintro (hq | hq)
        · exact ⟨.inl ⟨by omega, hq.2⟩, hq.1⟩
        · have := above hq
          exact ⟨.inr hq, by omega⟩
      · rintro ⟨hq | hq, hp⟩
        · exact .inl ⟨hp, hq.2⟩
        · exact .inr hq
    · refine ⟨fun hq => ⟨hq, ?_⟩, fun hq => hq.1⟩
      rcases covers_cons.mp hq with hq' | hq'
      · have := hq'.1
        omega
      · have := above hq'
        omega

theorem deleteLoop_normal {p : Int} :
    ∀ {l : List IntRange}, Normal l → Normal (deleteLoop p l)
  | [], _ => normal_nil
  | r :: rest, h => by
    obtain ⟨hr, hb, hn⟩ := normal_cons.mp h
    unfold deleteLoop
    split_ifs with h₁ h₂
    · exact deleteLoop_normal hn
    · exact normal_cons.mpr ⟨h₂.2, hb, hn⟩
    · exact h

theorem length_deleteLoop {p : Int} :
    ∀ (l : List IntRange), (deleteLoop p l).length ≤ l.length
  | [] => le_rfl
  | r :: rest => by
    unfold deleteLoop
    split_ifs
    · exact Nat.le_succ_of_le (length_deleteLoop rest)
    · simp
    · exact le_rfl

/-! ## The set a history stands for -/

/-- The packet numbers the history answers for. -/
def Seen (h : ReceivedPacketHistory) (p : Int) : Prop :=
  p < h.deletedBelow ∨ Covers h.ranges p

/-- What every operation keeps: canonical ranges, all at or above the limit,
and no more of them than the bound allows. -/
structure WF (h : ReceivedPacketHistory) : Prop where
  normal : Normal h.ranges
  above : ∀ p, Covers h.ranges p → h.deletedBelow ≤ p
  bounded : h.ranges.length ≤ maxNumAckRanges

/-- `p` can be recorded without pruning: it is ignored, there is room for one
more range, or `p` touches a range that exists. -/
def Fits (h : ReceivedPacketHistory) (p : Int) : Prop :=
  p < h.deletedBelow ∨ h.ranges.length < maxNumAckRanges ∨
    ∃ r ∈ h.ranges, r.start - 1 ≤ p ∧ p ≤ r.end_ + 1

instance (h : ReceivedPacketHistory) (p : Int) : Decidable (h.Fits p) := by
  unfold Fits; infer_instance

theorem wf_new : WF new :=
  ⟨normal_nil, fun _ h => absurd h covers_nil, Nat.zero_le _⟩

@[simp] theorem receivedPacket_deletedBelow (h : ReceivedPacketHistory) (p : Int) :
    (h.receivedPacket p).1.deletedBelow = h.deletedBelow := by
  unfold receivedPacket prune
  split_ifs <;> rfl

section WellFormed

variable {h : ReceivedPacketHistory} (wf : h.WF) (p : Int)

include wf

theorem WF.descending : Descending h.ranges.reverse := by
  simpa [Descending] using wf.normal

theorem covers_addToRanges (q : Int) :
    Covers (h.addToRanges p).1.ranges q ↔ Covers h.ranges q ∨ q = p := by
  simp [addToRanges, (addLoop_spec wf.descending).2.1]

theorem setOf_covers_addToRanges :
    {q | Covers (h.addToRanges p).1.ranges q} = insert p {q | Covers h.ranges q} :=
  Set.ext fun q => (covers_addToRanges wf p q).trans or_comm

theorem addToRanges_normal : Normal (h.addToRanges p).1.ranges := by
  have := (addLoop_spec (p := p) wf.descending).1
  simpa [Descending, addToRanges] using this

theorem length_addToRanges : (h.addToRanges p).1.ranges.length ≤ h.ranges.length + 1 ∧
    ((h.addToRanges p).1.ranges.length ≤ h.ranges.length ↔
      ∃ r ∈ h.ranges, r.start - 1 ≤ p ∧ p ≤ r.end_ + 1) := by
  have := length_addLoop (p := p) wf.descending
  simpa [addToRanges] using this

theorem isPotentiallyDuplicate_iff : h.isPotentiallyDuplicate p = true ↔ h.Seen p := by
  unfold isPotentiallyDuplicate Seen
  split_ifs with hp
  · exact ⟨fun _ => .inl hp, fun _ => rfl⟩
  · rw [duplicateLoop_eq_true wf.descending, covers_reverse]
    exact ⟨Or.inr, fun hs => hs.resolve_left hp⟩

theorem receivedPacket_new_iff : (h.receivedPacket p).2 = true ↔ ¬ h.Seen p := by
  unfold receivedPacket Seen
  split_ifs with hp
  · simp [hp]
  · simp [addToRanges, (addLoop_spec wf.descending).2.2, hp]

/-- Within the bound nothing is pruned. -/
theorem receivedPacket_ranges_of_fits (hp : ¬ p < h.deletedBelow) (hf : h.Fits p) :
    (h.receivedPacket p).1 = (h.addToRanges p).1 := by
  have hlen : (h.addToRanges p).1.ranges.length ≤ maxNumAckRanges := by
    obtain ⟨h₁, h₂⟩ := length_addToRanges wf p
    have hb := wf.bounded
    rcases hf with hf | hf | hf
    · exact absurd hf hp
    · omega
    · have := h₂.mpr hf
      omega
  simp [receivedPacket, hp, prune, Nat.not_lt.mpr hlen]

/-- Recording a packet that fits adds exactly that packet. -/
theorem seen_receivedPacket (hf : h.Fits p) (q : Int) :
    (h.receivedPacket p).1.Seen q ↔ h.Seen q ∨ q = p := by
  by_cases hp : p < h.deletedBelow
  · have : (h.receivedPacket p).1 = h := by simp [receivedPacket, hp]
    rw [this]
    refine ⟨Or.inl, fun hs => hs.elim id ?_⟩
    rintro rfl
    exact .inl hp
  · rw [receivedPacket_ranges_of_fits wf p hp hf]
    show q < h.deletedBelow ∨ Covers (h.addToRanges p).1.ranges q ↔ _
    rw [covers_addToRanges wf p q, Seen, or_assoc]

/-- Nothing else enters the ranges, whether or not the history is pruned. -/
theorem covers_receivedPacket (q : Int) (hq : Covers (h.receivedPacket p).1.ranges q) :
    Covers h.ranges q ∨ (q = p ∧ ¬ h.Seen p) := by
  unfold receivedPacket at hq
  split_ifs at hq with hp
  · exact .inl hq
  · have hadd : Covers (h.addToRanges p).1.ranges q := by
      unfold prune at hq
      split_ifs at hq
      · obtain ⟨r, hr, hrq⟩ := hq
        exact ⟨r, mem_of_mem_drop hr, hrq⟩
      · exact hq
    by_cases hc : Covers h.ranges q
    · exact .inl hc
    · obtain rfl := ((covers_addToRanges wf p q).mp hadd).resolve_left hc
      exact .inr ⟨rfl, fun hs => hs.elim hp hc⟩

/-- How far up the ranges reach after `p` was recorded: pruning never removes
the highest range. -/
theorem receivedPacket_exists_end_ge (hnew : (h.receivedPacket p).2 = true) (m : Int) :
    (∃ r ∈ (h.receivedPacket p).1.ranges, m ≤ r.end_) ↔ m ≤ p ∨ ∃ r ∈ h.ranges, m ≤ r.end_ := by
  have hp : ¬ p < h.deletedBelow := fun hp => (receivedPacket_new_iff wf p).mp hnew (.inl hp)
  have hn := addToRanges_normal wf p
  have hadd : (∃ r ∈ (h.addToRanges p).1.ranges, m ≤ r.end_) ↔
      m ≤ p ∨ ∃ r ∈ h.ranges, m ≤ r.end_ := by
    rw [exists_end_ge_iff hn.nonempty, exists_end_ge_iff wf.normal.nonempty]
    simp only [covers_addToRanges wf, or_and_right, exists_or, exists_eq_left]
    exact Or.comm
  rw [← hadd]
  unfold receivedPacket prune
  rw [if_neg hp]
  dsimp only
  split_ifs with hlen
  · have : maxNumAckRanges = 32 := rfl
    exact hn.exists_end_ge_drop (by omega)
  · exact Iff.rfl

/-- A recorded packet leaves a range behind, its own or a higher one. -/
theorem receivedPacket_ranges_ne_nil (hnew : (h.receivedPacket p).2 = true) :
    (h.receivedPacket p).1.ranges ≠ [] := by
  obtain ⟨r, hr, -⟩ := (receivedPacket_exists_end_ge wf p hnew p).mpr (.inl le_rfl)
  exact ne_nil_of_mem hr

theorem wf_receivedPacket : (h.receivedPacket p).1.WF := by
  have habove : ∀ q, Covers (h.receivedPacket p).1.ranges q →
      (h.receivedPacket p).1.deletedBelow ≤ q := by
    intro q hq
    rw [receivedPacket_deletedBelow]
    rcases covers_receivedPacket wf p q hq with hc | ⟨rfl, hn⟩
    · exact wf.above q hc
    · exact Int.not_lt.mp fun hlt => hn (.inl hlt)
  refine ⟨?_, habove, ?_⟩
  · unfold receivedPacket prune
    split_ifs with hp hlen
    · exact wf.normal
    · exact (addToRanges_normal wf p).of_suffix (drop_sublist _ _)
    · exact addToRanges_normal wf p
  · unfold receivedPacket prune
    split_ifs with hp hlen
    · exact wf.bounded
    · simp only [length_drop]
      omega
    · exact Nat.not_lt.mp hlen

theorem wf_deleteBelow : (h.deleteBelow p).WF := by
  unfold deleteBelow
  split_ifs with hp
  · exact wf
  · exact ⟨deleteLoop_normal wf.normal, fun q hq => ((covers_deleteLoop wf.normal q).mp hq).2,
      (length_deleteLoop _).trans wf.bounded⟩

theorem seen_deleteBelow {q : Int} (hq : h.Seen q) : (h.deleteBelow p).Seen q := by
  unfold deleteBelow
  split_ifs with hp
  · exact hq
  · rcases hq with hq | hq
    · exact .inl (by show q < p; omega)
    · by_cases hqp : q < p
      · exact .inl hqp
      · exact .inr ((covers_deleteLoop wf.normal q).mpr ⟨hq, Int.not_lt.mp hqp⟩)

theorem covers_deleteBelow {q : Int} (hq : Covers (h.deleteBelow p).ranges q) :
    Covers h.ranges q := by
  unfold deleteBelow at hq
  split_ifs at hq with hp
  · exact hq
  · exact ((covers_deleteLoop wf.normal q).mp hq).1

/-- `DeleteBelow` leaves a range exactly when one reaches the limit. -/
theorem deleteBelow_ranges_ne_nil (hp : h.deletedBelow ≤ p) :
    (h.deleteBelow p).ranges ≠ [] ↔ ∃ r ∈ h.ranges, p ≤ r.end_ := by
  have hdel : (h.deleteBelow p).ranges = deleteLoop p h.ranges := by
    simp [deleteBelow, Int.not_lt.mpr hp]
  rw [hdel]
  constructor
  · intro hne
    obtain ⟨r, hr⟩ := exists_mem_of_ne_nil _ hne
    have hcovers := covers_of_mem hr
      (contains_end ((deleteLoop_normal (p := p) wf.normal).nonempty r hr))
    obtain ⟨⟨q, hq, hqr⟩, hle⟩ := (covers_deleteLoop wf.normal _).mp hcovers
    exact ⟨q, hq, hle.trans hqr.2⟩
  · rintro ⟨r, hr, hle⟩
    have hcovers := (covers_deleteLoop (p := p) wf.normal r.end_).mpr
      ⟨covers_of_mem hr (contains_end (wf.normal.nonempty r hr)), hle⟩
    obtain ⟨q, hq, -⟩ := hcovers
    exact ne_nil_of_mem hq

/-- The set after a packet: `p` joins it, and the lowest run leaves it once there
are too many. -/
theorem setOf_covers_receivedPacket (hp : ¬ p < h.deletedBelow) :
    {q | Covers (h.receivedPacket p).1.ranges q} =
      evictLowest maxNumAckRanges (insert p {q | Covers h.ranges q}) := by
  have hlen : (h.addToRanges p).1.ranges.length ≤ maxNumAckRanges + 1 :=
    (length_addToRanges wf p).1.trans (Nat.succ_le_succ wf.bounded)
  rw [← setOf_covers_addToRanges wf p, (addToRanges_normal wf p).evictLowest hlen]
  unfold receivedPacket prune
  rw [if_neg hp]
  dsimp only
  split_ifs with hlt
  · rfl
  · rw [Nat.sub_eq_zero_of_le (Nat.not_lt.mp hlt), drop_zero]

/-- Recording a packet that does not fit makes the history forget a number it
holds, or the packet itself: the lowest range goes, and the limit stays. -/
theorem receivedPacket_forgets (hf : ¬ h.Fits p) :
    ∃ q, (Covers h.ranges q ∨ q = p) ∧ ¬ (h.receivedPacket p).1.Seen q := by
  obtain ⟨hp, hlen, hapart⟩ : ¬ p < h.deletedBelow ∧ ¬ h.ranges.length < maxNumAckRanges ∧
      ¬ ∃ r ∈ h.ranges, r.start - 1 ≤ p ∧ p ≤ r.end_ + 1 := by
    simpa only [Fits, not_or] using hf
  have hn := addToRanges_normal wf p
  have hlt : maxNumAckRanges < (h.addToRanges p).1.ranges.length := by
    have := (not_congr (length_addToRanges wf p).2).mpr hapart
    omega
  have hpos : (h.addToRanges p).1.ranges ≠ [] := ne_nil_of_length_pos (by omega)
  obtain ⟨q, hq⟩ := hn.lowestRun_nonempty hpos
  have hin := (covers_addToRanges wf p q).mp hq.1
  refine ⟨q, hin, ?_⟩
  rintro (hlow | hcovers)
  · rw [receivedPacket_deletedBelow] at hlow
    rcases hin with hc | rfl
    · exact absurd hlow (Int.not_lt.mpr (wf.above _ hc))
    · exact hp hlow
  · have hmem : q ∈ {q | Covers (h.receivedPacket p).1.ranges q} := hcovers
    rw [setOf_covers_receivedPacket wf p hp, ← setOf_covers_addToRanges wf p, IntRange.evictLowest,
      hn.finite_runStarts.2, if_pos hlt] at hmem
    exact hmem.2 hq

end WellFormed

/-! ## Runs

A run is a list of calls, replayed from the empty history. -/

/-- The two mutating calls. -/
inductive Op
  | receivedPacket (p : Int)
  | deleteBelow (p : Int)
  deriving DecidableEq, Repr

def apply (h : ReceivedPacketHistory) : Op → ReceivedPacketHistory
  | .receivedPacket p => (h.receivedPacket p).1
  | .deleteBelow p => h.deleteBelow p

def after (ops : List Op) : ReceivedPacketHistory := ops.foldl apply new

/-- Once `ReceivedPacket(p)` has returned true, in every later state of the run
`p` is a potential duplicate and `ReceivedPacket(p)` returns false. -/
def NeverTwice (ops : List Op) : Prop :=
  ∀ pre p mid, pre ++ .receivedPacket p :: mid <+: ops →
    ((after pre).receivedPacket p).2 = true →
      (after (pre ++ .receivedPacket p :: mid)).isPotentiallyDuplicate p = true ∧
        ((after (pre ++ .receivedPacket p :: mid)).receivedPacket p).2 = false

/-- Every packet the run records fits into the history it is recorded in. -/
def Fitting (ops : List Op) : Prop :=
  ∀ pre p, pre ++ [.receivedPacket p] <+: ops → (after pre).Fits p

theorem after_append (ops ops' : List Op) : after (ops ++ ops') = ops'.foldl apply (after ops) :=
  foldl_append

theorem wf_apply {h : ReceivedPacketHistory} (wf : h.WF) : ∀ op, (h.apply op).WF
  | .receivedPacket p => wf_receivedPacket wf p
  | .deleteBelow p => wf_deleteBelow wf p

theorem wf_after (ops : List Op) : (after ops).WF := by
  induction ops using List.reverseRecOn with
  | nil => exact wf_new
  | append_singleton ops op ih =>
    rw [after_append]
    exact wf_apply ih op

/-! ## The recorded numbers, without the ranges -/

/-- A set of packet numbers, and the largest `DeleteBelow` so far. -/
structure Recorded where
  numbers : Set Int
  limit : Int

/-- What a call does to the set.  A number below the limit is ignored; any other
one joins the set, which loses its lowest run once it has too many. -/
noncomputable def Recorded.apply (a : Recorded) : Op → Recorded
  | .receivedPacket p =>
    if p < a.limit then a
    else { a with numbers := evictLowest maxNumAckRanges (insert p a.numbers) }
  | .deleteBelow q => ⟨{p ∈ a.numbers | q ≤ p}, max a.limit q⟩

noncomputable def Recorded.after (ops : List Op) : Recorded :=
  ops.foldl Recorded.apply ⟨∅, 0⟩

/-- The set a history keeps in its ranges. -/
def recorded (h : ReceivedPacketHistory) : Recorded :=
  ⟨{p | Covers h.ranges p}, h.deletedBelow⟩

theorem recorded_apply {h : ReceivedPacketHistory} (wf : h.WF) (op : Op) :
    (h.apply op).recorded = h.recorded.apply op := by
  cases op with
  | receivedPacket p =>
    simp only [apply, recorded, Recorded.apply, receivedPacket_deletedBelow]
    by_cases hp : p < h.deletedBelow
    · simp [receivedPacket, hp]
    · rw [setOf_covers_receivedPacket wf p hp]
      exact (if_neg hp).symm
  | deleteBelow q =>
    simp only [apply, recorded, Recorded.apply, deleteBelow]
    split_ifs with hq
    · -- an older limit deletes nothing
      have hkeep : {p | Covers h.ranges p ∧ q ≤ p} = {p | Covers h.ranges p} :=
        Set.ext fun p => and_iff_left_of_imp fun hp => (hq.trans_le (wf.above p hp)).le
      rw [max_eq_left hq.le]
      exact congrArg (Recorded.mk · _) hkeep.symm
    · rw [max_eq_right (Int.not_lt.mp hq)]
      exact congrArg (Recorded.mk · _) (Set.ext fun p => covers_deleteLoop wf.normal p)

theorem recorded_after (ops : List Op) : (after ops).recorded = Recorded.after ops := by
  induction ops using List.reverseRecOn with
  | nil => simp [after, new, recorded, Recorded.after]
  | append_singleton ops op ih =>
    rw [after_append, Recorded.after, foldl_append]
    exact (recorded_apply (wf_after ops) op).trans (congrArg (Recorded.apply · op) ih)

/-- **The ranges are canonical, bounded, and hold exactly the recorded numbers.**
A packet is reported as new when it is not below the limit and not among them. -/
theorem ranges_canonical (ops : List Op) :
    Normal (after ops).ranges ∧ (after ops).ranges.length ≤ maxNumAckRanges ∧
      (∀ r ∈ (after ops).ranges, (after ops).deletedBelow ≤ r.start) ∧
      (after ops).recorded = Recorded.after ops ∧ ∀ p, ((after ops).receivedPacket p).2 = true ↔
        (Recorded.after ops).limit ≤ p ∧ p ∉ (Recorded.after ops).numbers := by
  have wf := wf_after ops
  refine ⟨wf.normal, wf.bounded, fun r hr => ?_, recorded_after ops, fun p => ?_⟩
  · exact wf.above _ (covers_of_mem hr (contains_start (wf.normal.nonempty r hr)))
  · rw [receivedPacket_new_iff wf p, ← recorded_after, Seen, not_or, Int.not_lt]
    rfl

variable {ops : List Op}

/-- Along calls that fit, nothing seen is forgotten. -/
theorem seen_after_append {q : Int} (hq : (after ops).Seen q) :
    ∀ mid, Fitting (ops ++ mid) → (after (ops ++ mid)).Seen q := by
  intro mid
  induction mid using List.reverseRecOn with
  | nil => intro _; simpa using hq
  | append_singleton mid op ih =>
    intro hfit
    rw [← append_assoc] at hfit ⊢
    have hprev := ih fun pre p hp => hfit pre p (hp.trans (prefix_append _ _))
    rw [after_append]
    cases op with
    | receivedPacket p =>
      exact (seen_receivedPacket (wf_after _) p (hfit _ p (prefix_refl _)) q).mpr
        (.inl hprev)
    | deleteBelow p => exact seen_deleteBelow (wf_after _) p hprev

/-- Every number in a range was accepted by an earlier call. -/
theorem accepted_of_covers {q : Int} : ∀ {ops : List Op}, Covers (after ops).ranges q →
    ∃ pre mid, ops = pre ++ .receivedPacket q :: mid ∧ ((after pre).receivedPacket q).2 = true := by
  intro ops
  induction ops using List.reverseRecOn with
  | nil => intro h; exact absurd h covers_nil
  | append_singleton ops op ih =>
    intro h
    have earlier : Covers (after ops).ranges q → ∃ pre mid,
        ops ++ [op] = pre ++ .receivedPacket q :: mid ∧
          ((after pre).receivedPacket q).2 = true := by
      intro hc
      obtain ⟨pre, mid, rfl, haccepted⟩ := ih hc
      exact ⟨pre, mid ++ [op], by simp, haccepted⟩
    rw [after_append] at h
    cases op with
    | receivedPacket p =>
      rcases covers_receivedPacket (wf_after ops) p q h with hc | ⟨rfl, hnew⟩
      · exact earlier hc
      · exact ⟨ops, [], rfl, (receivedPacket_new_iff (wf_after ops) q).mpr hnew⟩
    | deleteBelow p => exact earlier (covers_deleteBelow (wf_after ops) p h)

/-- On a well-formed history, "duplicate" and "not new" are both membership. -/
theorem duplicate_iff_seen {h : ReceivedPacketHistory} (wf : h.WF) (p : Int) :
    (h.isPotentiallyDuplicate p = true ∧ (h.receivedPacket p).2 = false) ↔ h.Seen p := by
  rw [isPotentiallyDuplicate_iff wf p, ← Bool.not_eq_true, receivedPacket_new_iff wf p, not_not,
    and_self]

theorem fitting_neverTwice (hfit : Fitting ops) : NeverTwice ops := by
  intro pre p mid hpre _
  rw [duplicate_iff_seen (wf_after _)]
  have hfit' : Fitting (pre ++ [.receivedPacket p] ++ mid) := by
    intro pre' p' hp'
    refine hfit pre' p' (hp'.trans ?_)
    simpa using hpre
  have hnow : (after (pre ++ [.receivedPacket p])).Seen p := by
    rw [after_append]
    refine (seen_receivedPacket (wf_after pre) p (hfit pre p ?_) p).mpr (.inr rfl)
    exact (prefix_append _ mid).trans (by simpa using hpre)
  simpa using seen_after_append hnow mid hfit'

theorem neverTwice_fitting (h : NeverTwice ops) : Fitting ops := by
  intro pre p hpre
  by_contra hfit
  obtain ⟨q, hq, hforgot⟩ := receivedPacket_forgets (wf_after pre) p hfit
  have hstate : after (pre ++ [.receivedPacket p]) = ((after pre).receivedPacket p).1 :=
    after_append pre [.receivedPacket p]
  -- the forgotten number was accepted, in `pre` or by this very call
  rcases hq with hq | rfl
  · obtain ⟨pre₀, mid, rfl, haccepted⟩ := accepted_of_covers hq
    have := h pre₀ q (mid ++ [.receivedPacket p]) (by simpa using hpre) haccepted
    rw [duplicate_iff_seen (wf_after _)] at this
    apply hforgot
    rw [← hstate]
    simpa using this
  · have hnew : ¬ (after pre).Seen q := by
      rintro (hlt | ⟨r, hr, hrq⟩)
      · exact hfit (.inl hlt)
      · exact hfit (.inr (.inr ⟨r, hr, by have := hrq.1; omega, by have := hrq.2; omega⟩))
    have := h pre q [] hpre ((receivedPacket_new_iff (wf_after pre) q).mpr hnew)
    rw [duplicate_iff_seen (wf_after _)] at this
    exact hforgot (hstate ▸ this)

/-- **No packet number is processed twice exactly in the runs whose packets
fit.**  A run that never overflows the range bound detects every duplicate; a
run that overflows it once forgets a number it has already processed. -/
theorem neverTwice_iff_fitting (ops : List Op) : NeverTwice ops ↔ Fitting ops :=
  ⟨neverTwice_fitting, fitting_neverTwice⟩

/-- Packet numbers 0, 2, …, 64: thirty-three ranges, one more than are kept. -/
def evenPackets : List Op := (List.range 33).map fun i => .receivedPacket (2 * i)

/-- After them the history no longer knows packet 0 and accepts it again. -/
theorem not_neverTwice_evenPackets : ¬ NeverTwice evenPackets := by
  intro h
  have := h [] 0 (evenPackets.drop 1) (by decide +kernel) (by decide)
  exact absurd this.1 (by decide +kernel)

end ReceivedPacketHistory

end UQuic.AckHandler
