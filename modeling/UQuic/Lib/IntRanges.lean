/-
# `UQuic.Lib.IntRanges` — sets of integers as lists of separated intervals

A finite set of integers is kept as a list of closed intervals.  `Normal` is
the canonical form: every interval is non-empty, they ascend, and between two
of them at least one integer is missing, so a set has one list.  `Covers` is
the set such a list stands for; the lemmas below let a walk over the list be
reasoned about through `Covers` alone.
-/
import Mathlib

/-- The integers from `start` to `end_`, both included. -/
structure IntRange where
  start : Int
  end_ : Int
  deriving DecidableEq, Repr

namespace IntRange

open List

/-- `p` lies in `r`. -/
def Contains (r : IntRange) (p : Int) : Prop := r.start ≤ p ∧ p ≤ r.end_

/-- `a` lies below `b` and does not touch it. -/
def Before (a b : IntRange) : Prop := a.end_ + 1 < b.start

/-- The set a list of intervals stands for. -/
def Covers (l : List IntRange) (p : Int) : Prop := ∃ r ∈ l, r.Contains p

/-- Non-empty intervals, ascending, none touching the next. -/
structure Normal (l : List IntRange) : Prop where
  nonempty : ∀ r ∈ l, r.start ≤ r.end_
  sep : l.Pairwise Before

/-! ## The set of a list -/

variable {p : Int}

@[simp] theorem covers_nil : ¬ Covers [] p := by
  rintro ⟨r, hr, _⟩
  exact absurd hr not_mem_nil

variable {l : List IntRange} {r : IntRange}

@[simp] theorem covers_cons : Covers (r :: l) p ↔ r.Contains p ∨ Covers l p := by
  simp [Covers]

@[simp] theorem covers_reverse : Covers l.reverse p ↔ Covers l p := by
  simp [Covers]

/-- The top of a non-empty interval belongs to it. -/
theorem contains_end (h : r.start ≤ r.end_) : r.Contains r.end_ :=
  ⟨h, Int.le_refl _⟩

theorem contains_start (h : r.start ≤ r.end_) : r.Contains r.start :=
  ⟨Int.le_refl _, h⟩

theorem covers_of_mem (hr : r ∈ l) (hp : r.Contains p) : Covers l p := ⟨r, hr, hp⟩

/-! ## Growing an interval by the number next to it -/

section Grow

variable {r' : IntRange} {q : Int}

theorem contains_singleton : Contains ⟨p, p⟩ q ↔ q = p := by
  simp only [Contains]
  omega

theorem contains_growEnd (h : r.start ≤ r.end_) (hp : r.end_ = p - 1) :
    Contains { r with end_ := p } q ↔ r.Contains q ∨ q = p := by
  simp only [Contains]
  omega

theorem contains_growStart (h : r.start ≤ r.end_) (hp : r.start = p + 1) :
    Contains { r with start := p } q ↔ r.Contains q ∨ q = p := by
  simp only [Contains]
  omega

/-- Two intervals with one number missing between them become one. -/
theorem contains_join (h : r.start ≤ r.end_) (h' : r'.start ≤ r'.end_) (hp' : r'.end_ + 1 = p)
    (hp : r.start = p + 1) :
    Contains { r' with end_ := r.end_ } q ↔ (r.Contains q ∨ r'.Contains q) ∨ q = p := by
  simp only [Contains]
  omega

end Grow

/-! ## Canonical form -/

theorem normal_nil : Normal [] := ⟨fun _ h => absurd h not_mem_nil, .nil⟩

theorem normal_cons : Normal (r :: l) ↔ r.start ≤ r.end_ ∧ (∀ q ∈ l, Before r q) ∧ Normal l := by
  constructor
  · rintro ⟨hne, hsep⟩
    rw [pairwise_cons] at hsep
    exact ⟨hne r mem_cons_self, hsep.1, ⟨fun q hq => hne q (mem_cons_of_mem _ hq), hsep.2⟩⟩
  · rintro ⟨hr, hb, hl⟩
    refine ⟨?_, pairwise_cons.mpr ⟨hb, hl.sep⟩⟩
    intro q hq
    rcases mem_cons.mp hq with rfl | hq'
    · exact hr
    · exact hl.nonempty q hq'

theorem Normal.of_suffix {l l' : List IntRange} (h : Normal l) (hs : l'.Sublist l) : Normal l' :=
  ⟨fun r hr => h.nonempty r (hs.subset hr), h.sep.sublist hs⟩

/-- Everything covered above `r` lies strictly beyond `r.end_ + 1`. -/
theorem lt_of_covers_before (h : ∀ q ∈ l, Before r q) (hp : Covers l p) : r.end_ + 1 < p := by
  obtain ⟨q, hq, hqp⟩ := hp
  exact Int.lt_of_lt_of_le (h q hq) hqp.1

/-- A list all of whose members lie below `b` is recognised by its set. -/
theorem before_of_covers {b : IntRange}
    (hne : ∀ r ∈ l, r.start ≤ r.end_) (h : ∀ p, Covers l p → p + 1 < b.start) :
    ∀ r ∈ l, Before r b :=
  fun r hr => h _ (covers_of_mem hr (contains_end (hne r hr)))

/-- A list reaches `m` exactly when it covers a number from `m` on. -/
theorem exists_end_ge_iff {m : Int} (hne : ∀ r ∈ l, r.start ≤ r.end_) :
    (∃ r ∈ l, m ≤ r.end_) ↔ ∃ p, Covers l p ∧ m ≤ p := by
  constructor
  · rintro ⟨r, hr, hm⟩
    exact ⟨r.end_, covers_of_mem hr (contains_end (hne r hr)), hm⟩
  · rintro ⟨p, ⟨r, hr, hp⟩, hm⟩
    exact ⟨r, hr, Int.le_trans hm hp.2⟩

/-- Dropping low intervals, but not all of them, does not change how far up the
list reaches. -/
theorem Normal.exists_end_ge_drop {m : Int} {k : Nat} (h : Normal l)
    (hk : k < l.length) : (∃ r ∈ l.drop k, m ≤ r.end_) ↔ ∃ r ∈ l, m ≤ r.end_ := by
  constructor
  · rintro ⟨r, hr, hm⟩
    exact ⟨r, mem_of_mem_drop hr, hm⟩
  · rintro ⟨r, hr, hm⟩
    rw [← take_append_drop k l, mem_append] at hr
    rcases hr with hr | hr
    · obtain ⟨q, hq⟩ := exists_mem_of_length_pos (l := l.drop k) (by simp; omega)
      have hsep := h.sep
      rw [← take_append_drop k l, pairwise_append] at hsep
      have hb : r.end_ + 1 < q.start := hsep.2.2 r hr q hq
      have := h.nonempty q (mem_of_mem_drop hq)
      exact ⟨q, hq, by omega⟩
    · exact ⟨r, hr, hm⟩

/-! ## The same list, highest interval first

A walk that starts at the highest interval sees the reversed list. -/

/-- Canonical form of a list written from the highest interval down. -/
def Descending (l : List IntRange) : Prop := Normal l.reverse

theorem descending_nil : Descending [] := normal_nil

theorem descending_cons :
    Descending (r :: l) ↔ r.start ≤ r.end_ ∧ (∀ q ∈ l, Before q r) ∧ Descending l := by
  unfold Descending
  constructor
  · rintro ⟨hne, hsep⟩
    rw [reverse_cons, pairwise_append] at hsep
    refine ⟨hne r (by simp), fun q hq => hsep.2.2 q (by simpa using hq) r (by simp), ?_, hsep.1⟩
    intro q hq
    exact hne q (mem_reverse.mpr (mem_cons_of_mem _ (mem_reverse.mp hq)))
  · rintro ⟨hr, hb, hl⟩
    refine ⟨?_, ?_⟩
    · intro q hq
      rcases mem_cons.mp (mem_reverse.mp hq) with rfl | hq'
      · exact hr
      · exact hl.nonempty q (mem_reverse.mpr hq')
    · rw [reverse_cons, pairwise_append]
      refine ⟨hl.sep, pairwise_singleton _ _, ?_⟩
      intro q hq r' hr'
      rw [mem_singleton.mp hr']
      exact hb q (mem_reverse.mp hq)

theorem Descending.nonempty (h : Descending l) : ∀ r ∈ l, r.start ≤ r.end_ :=
  fun r hr => Normal.nonempty h r (mem_reverse.mpr hr)

/-- Everything covered below `r` lies strictly under `r.start - 1`. -/
theorem covers_lt_of_before (h : ∀ q ∈ l, Before q r) (hp : Covers l p) : p + 1 < r.start := by
  obtain ⟨q, hq, hqp⟩ := hp
  have hb : q.end_ + 1 < r.start := h q hq
  have := hqp.2
  omega

/-! ## Runs of consecutive numbers -/

/-- The first numbers of the maximal runs of a set. -/
def runStarts (s : Set Int) : Set Int := {p ∈ s | p - 1 ∉ s}

/-- The lowest run of a set: nothing is missing below its numbers, down to the
smallest number of the set. -/
def lowestRun (s : Set Int) : Set Int := {p ∈ s | ∀ q ∈ s, ∀ m, q ≤ m → m ≤ p → m ∈ s}

open Classical in
/-- A set of at most `k` runs is kept; a larger one loses its lowest run. -/
noncomputable def evictLowest (k : Nat) (s : Set Int) : Set Int :=
  if k < (runStarts s).ncard then s \ lowestRun s else s

theorem Normal.runStarts_cons (h : Normal (r :: l)) :
    runStarts {p | Covers (r :: l) p} = insert r.start (runStarts {p | Covers l p}) := by
  obtain ⟨hr, hb, -⟩ := normal_cons.mp h
  ext p
  simp only [runStarts, Set.mem_ofPred_eq, Set.mem_insert_iff, covers_cons, Contains]
  constructor
  · rintro ⟨hp | hp, hn⟩
    · exact Or.inl (by omega)
    · exact Or.inr ⟨hp, fun hc => hn (Or.inr hc)⟩
  · rintro (rfl | ⟨hp, hn⟩)
    · refine ⟨Or.inl ⟨Int.le_refl _, hr⟩, ?_⟩
      rintro (hc | hc)
      · omega
      · have := lt_of_covers_before hb hc
        omega
    · have := lt_of_covers_before hb hp
      exact ⟨Or.inr hp, fun hc => hc.elim (by omega) hn⟩

/-- The runs of a canonical list are its intervals. -/
theorem Normal.finite_runStarts :
    ∀ {l : List IntRange}, Normal l → (runStarts {p | Covers l p}).Finite ∧
      (runStarts {p | Covers l p}).ncard = l.length
  | [], _ => by simp [runStarts]
  | r :: l, h => by
    obtain ⟨hr, hb, hl⟩ := normal_cons.mp h
    obtain ⟨hfin, hcard⟩ := hl.finite_runStarts
    have hnot : r.start ∉ runStarts {p | Covers l p} := by
      rintro ⟨hc, -⟩
      have := lt_of_covers_before hb hc
      omega
    rw [h.runStarts_cons, Set.ncard_insert_of_notMem hnot hfin, hcard]
    exact ⟨hfin.insert _, rfl⟩

theorem Normal.lowestRun_cons (h : Normal (r :: l)) :
    lowestRun {p | Covers (r :: l) p} = {p | r.Contains p} := by
  obtain ⟨hr, hb, -⟩ := normal_cons.mp h
  ext p
  simp only [lowestRun, Set.mem_ofPred_eq, covers_cons]
  constructor
  · rintro ⟨hp | hp, hrun⟩
    · exact hp
    · -- the number after `r` is missing
      have hlt := lt_of_covers_before hb hp
      rcases hrun r.start (Or.inl (contains_start hr)) (r.end_ + 1) (by omega) (by omega) with
        hc | hc
      · exact absurd hc.2 (by omega)
      · exact absurd (lt_of_covers_before hb hc) (by omega)
  · intro hp
    refine ⟨Or.inl hp, fun q hq m hqm hmp => Or.inl ⟨?_, Int.le_trans hmp hp.2⟩⟩
    rcases hq with hq | hq
    · exact Int.le_trans hq.1 hqm
    · have := lt_of_covers_before hb hq
      omega

theorem Normal.lowestRun_nonempty (h : Normal l) (hl : l ≠ []) :
    (lowestRun {p | Covers l p}).Nonempty := by
  cases l with
  | nil => exact absurd rfl hl
  | cons r l =>
    rw [h.lowestRun_cons]
    exact ⟨r.start, contains_start (normal_cons.mp h).1⟩

/-- Keeping the `k` highest intervals of at most `k + 1` evicts the lowest run. -/
theorem Normal.evictLowest {k : Nat} (h : Normal l) (hk : l.length ≤ k + 1) :
    IntRange.evictLowest k {p | Covers l p} = {p | Covers (l.drop (l.length - k)) p} := by
  rw [IntRange.evictLowest, h.finite_runStarts.2]
  split_ifs with hlt
  · cases l with
    | nil => exact absurd hlt (Nat.not_lt_zero k)
    | cons r l =>
      obtain ⟨-, hb, -⟩ := normal_cons.mp h
      obtain rfl : l.length = k := by
        simp only [length_cons] at hlt hk
        omega
      rw [h.lowestRun_cons, length_cons, Nat.add_sub_cancel_left, drop_one, tail_cons]
      ext p
      simp only [Set.mem_sdiff, Set.mem_ofPred_eq, covers_cons]
      refine ⟨fun hp => hp.1.resolve_left hp.2, fun hp => ⟨Or.inr hp, fun hc => ?_⟩⟩
      have := lt_of_covers_before hb hp
      exact absurd hc.2 (by omega)
  · rw [Nat.sub_eq_zero_of_le (Nat.not_lt.mp hlt), drop_zero]

end IntRange
