/-
# `UQuic.Reassembly` — the frame sorter puts the stream back together

Let `S` be the byte stream of the peer, and let every frame carry a part of it.

## What is proved

For any interleaving of `Push` and `Pop` in which no `Push` fails:

    a Pop that returns data returns S[readPos, readPos + len)
    what all Pops returned together is S[0, readPos)
    a Pop returns no data  ↔  the byte at readPos was not pushed
    no call panics
    what has been read at the end does not depend on the order (`read_confluent`)

## How

The gaps are exactly the bytes that were not pushed, and the queue's entries tile
exactly the bytes that were pushed and not read (`Shape`, and `Inv` for the frames
of one stream).  `push` brings a piece `[start, stop)` to a queue from which
everything in `[start, stop)` was dropped (`Drops`) and to gaps from which
`[start, stop)` was taken (`Placed`); `Enqueued.grows` says that this is enough.  Where the
piece starts there are two cases: at or before some missing byte of the start gap (`Inside`), or
exactly at the gap's end (`AtEnd`).  Where it ends there are two more: in the same gap or in a
later one.
-/
import UQuic.FrameSorter
import UQuic.Lib.Blocks
import UQuic.Lib.Machine

namespace UQuic.FrameSorter

open List Except
open Blocks (Covers Tiling Clear CutOut)

/-! ## Slices of the stream -/

/-- `S[a, a + n)`. -/
def slice (S : Nat → UInt8) (a n : Nat) : List UInt8 := (List.range' a n).map S

variable {S : Nat → UInt8} {a b m n x : Nat} {lo hi : Nat} {g : ByteInterval}

@[simp] theorem length_slice : (slice S a n).length = n := by
  simp [slice]

theorem slice_append : slice S a m ++ slice S (a + m) n = slice S a (m + n) := by
  rw [slice, slice, slice, ← map_append, List.range'_append_1]

theorem drop_slice : (slice S a n).drop m = slice S (a + m) (n - m) := by
  rw [slice, ← map_drop, drop_range', Nat.mul_one]
  rfl

theorem take_slice : (slice S a n).take m = slice S a (min m n) := by
  rw [slice, ← map_take]
  rcases Nat.le_total m n with hle | hle
  · rw [take_range'_of_length_ge hle, Nat.min_eq_left hle]
    rfl
  · rw [take_range'_of_length_le hle, Nat.min_eq_right hle]
    rfl

/-! ## Gaps -/

/-- The byte is missing. -/
def InGaps (gaps : List ByteInterval) (x : Nat) : Prop := ∃ g ∈ gaps, g.start ≤ x ∧ x < g.stop

variable {gaps before stretch after : List ByteInterval}

@[simp] theorem inGaps_nil : ¬ InGaps [] x := by
  rintro ⟨g, hg, -⟩
  cases hg

@[simp] theorem inGaps_cons : InGaps (g :: gaps) x ↔ (g.start ≤ x ∧ x < g.stop) ∨
    InGaps gaps x := by
  simp [InGaps]

@[simp] theorem inGaps_append {gaps' : List ByteInterval} :
    InGaps (gaps ++ gaps') x ↔ InGaps gaps x ∨ InGaps gaps' x := by
  simp only [InGaps, mem_append, or_and_right, exists_or]

theorem not_inGaps_of_stop_le (h : ∀ g ∈ gaps, g.stop ≤ x) : ¬ InGaps gaps x := by
  rintro ⟨g, hg, hx⟩
  have := h g hg
  omega

theorem not_inGaps_of_lt_start (h : ∀ g ∈ gaps, x < g.start) : ¬ InGaps gaps x := by
  rintro ⟨g, hg, hx⟩
  have := h g hg
  omega

/-- A byte between two gaps, or beside the only gap there. -/
theorem not_inGaps_beside (hbefore : ∀ g ∈ before, g.stop ≤ x) (hg : ¬ (g.start ≤ x ∧ x < g.stop))
    (hafter : ∀ g ∈ after, x < g.start) :
    ¬ InGaps (before ++ g :: after) x := by
  rw [inGaps_append, inGaps_cons]
  rintro (hin | hin | hin)
  · exact not_inGaps_of_stop_le hbefore hin
  · exact hg hin
  · exact not_inGaps_of_lt_start hafter hin

/-- Gaps are nonempty, in order, apart from each other, and reach up to the end. -/
structure Ordered (gaps : List ByteInterval) : Prop where
  nonempty : ∀ g ∈ gaps, g.start < g.stop
  sorted : gaps.Pairwise fun g g' => g.stop < g'.start
  bound : ∀ g ∈ gaps, g.stop ≤ maxByteCount
  top : ∃ g ∈ gaps, g.stop = maxByteCount

theorem Ordered.inGaps_start (o : Ordered gaps) (hg : g ∈ gaps) : InGaps gaps g.start :=
  ⟨g, hg, le_rfl, o.nonempty g hg⟩

/-- Between the gaps that end before `lo` and the next one, nothing is missing. -/
theorem Ordered.not_inGaps (o : Ordered gaps) (hgaps : gaps = before ++ g :: after)
    (hbefore : ∀ g' ∈ before, g'.stop < lo)
    (hx : lo ≤ x) (hlt : x < g.start) : ¬ InGaps gaps x := by
  subst hgaps
  have hg := o.nonempty g (by simp)
  have hafter := (pairwise_cons.mp (pairwise_append.mp o.sorted).2.1).1
  refine not_inGaps_beside (fun g' hg' => ?_) (by omega) fun g' hg' => ?_
  · have := hbefore g' hg'
    omega
  · have := hafter g' hg'
    omega

/-- Replace a stretch of gaps by others within the same bounds. -/
theorem Ordered.splice {mid : List ByteInterval}
    (o : Ordered (before ++ stretch ++ after)) (hbefore : ∀ g ∈ before, g.stop < lo)
    (hafter : ∀ g ∈ after, hi < g.start) (hhi : hi ≤ maxByteCount)
    (hmid : ∀ g ∈ mid, lo ≤ g.start ∧ g.start < g.stop ∧ g.stop ≤ hi)
    (hsorted : mid.Pairwise fun g g' => g.stop < g'.start)
    (htop : (∃ g ∈ stretch, g.stop = maxByteCount) → ∃ g ∈ mid, g.stop = maxByteCount) :
    Ordered (before ++ mid ++ after) := by
  have hall : ∀ {P : ByteInterval → Prop}, (∀ g ∈ before ++ stretch ++ after, P g) →
      (∀ g ∈ mid, P g) → ∀ g ∈ before ++ mid ++ after, P g := by
    simp only [forall_mem_append]
    tauto
  refine ⟨hall o.nonempty fun g hg => (hmid g hg).2.1, ?_,
    hall o.bound fun g hg => (hmid g hg).2.2.trans hhi, ?_⟩
  · have hs := o.sorted
    simp only [pairwise_append, mem_append] at hs ⊢
    obtain ⟨⟨hb, -, -⟩, ha, hcross⟩ := hs
    refine ⟨⟨hb, hsorted, ?_⟩, ha, ?_⟩
    · intro g hg g' hg'
      have := hbefore g hg
      have := hmid g' hg'
      omega
    · rintro g (hg | hg) g' hg'
      · exact hcross g (.inl hg) g' hg'
      · have := hmid g hg
        have := hafter g' hg'
        omega
  · obtain ⟨g, hg, hgtop⟩ := o.top
    simp only [mem_append] at hg
    rcases hg with (hg | hg) | hg
    · exact ⟨g, by simp [hg], hgtop⟩
    · obtain ⟨g', hg', htop'⟩ := htop ⟨g, hg, hgtop⟩
      exact ⟨g', by simp [hg'], htop'⟩
    · exact ⟨g, by simp [hg], hgtop⟩

/-! ### Finding gaps -/

/-- `findStartGap` stops at the first gap that does not end before the offset. -/
theorem findStartGap_ok {offset : Nat} : ∀ {gaps : List ByteInterval} (passed : List ByteInterval),
    (∀ g ∈ gaps, g.start < g.stop) → (∃ g ∈ gaps, offset ≤ g.stop) → ∃ before gap after,
      findStartGap offset passed gaps =
        .ok ⟨passed ++ before, gap, after, decide (gap.start ≤ offset)⟩ ∧
      gaps = before ++ gap :: after ∧ (∀ g ∈ before, g.stop < offset) ∧ offset ≤ gap.stop
  | [], _, _, h => by
    obtain ⟨g, hg, -⟩ := h
    cases hg
  | g :: rest, passed, hne, h => by
    simp only [findStartGap]
    split
    · rename_i hin
      exact ⟨[], g, rest, by simp [hin.1], rfl, by simp, hin.2⟩
    · rename_i hin
      split_ifs with hlt
      · refine ⟨[], g, rest, ?_, rfl, by simp, ?_⟩
        · simp [Nat.not_le.mpr hlt]
        · have := hne g mem_cons_self
          omega
      · have hrest := ((exists_mem_cons_iff _ _ _).mp h).resolve_left fun hle =>
          hin ⟨Nat.not_lt.mp hlt, hle⟩
        obtain ⟨before, gap, after, heq, hsplit, hbefore, hle⟩ :=
          findStartGap_ok (passed ++ [g]) (forall_mem_cons.mp hne).2 hrest
        refine ⟨g :: before, gap, after, ?_, by rw [hsplit]; rfl,
          forall_mem_cons.mpr ⟨by omega, hbefore⟩, hle⟩
        rw [heq]
        simp

/-- `findEndGap` past the start gap: it stops at the last gap that starts at or
before the offset. -/
theorem findEndGapLoop_ok {stop : Nat} : ∀ {gaps : List ByteInterval} (passed : List ByteInterval),
    (∀ g ∈ gaps, g.start < g.stop) → gaps.Pairwise (fun g g' => g.stop < g'.start) →
      (∃ g ∈ gaps, stop < g.stop) →
      (findEndGapLoop stop passed gaps = .ok (prevOf passed gaps, false) ∧
        ∀ g ∈ gaps, stop < g.start) ∨
      ∃ between gap after,
        findEndGapLoop stop passed gaps =
          .ok (.later (passed ++ between) gap after, decide (stop < gap.stop)) ∧
        gaps = between ++ gap :: after ∧ gap.start ≤ stop ∧ ∀ g ∈ after, stop < g.start
  | [], _, _, _, h => by
    obtain ⟨g, hg, -⟩ := h
    cases hg
  | g :: rest, passed, hne, hsorted, h => by
    have hlen := hne g mem_cons_self
    obtain ⟨hg, hrest⟩ := pairwise_cons.mp hsorted
    simp only [findEndGapLoop]
    split
    · rename_i hin
      refine .inr ⟨[], g, rest, by simp [hin.2], rfl, hin.1, fun g' hg' => ?_⟩
      have := hg g' hg'
      omega
    · rename_i hin
      split
      · rename_i hlt
        refine .inl ⟨rfl, forall_mem_cons.mpr ⟨hlt, fun g' hg' => ?_⟩⟩
        have := hg g' hg'
        omega
      · rename_i hge
        have hstop : ¬ stop < g.stop := fun hlt => hin ⟨Nat.not_lt.mp hge, hlt⟩
        rcases findEndGapLoop_ok (passed ++ [g]) (forall_mem_cons.mp hne).2 hrest
          (((exists_mem_cons_iff _ _ _).mp h).resolve_left hstop) with ⟨heq, hafter⟩ |
          ⟨between, gap, after, heq, hsplit, hle, hafter⟩
        · refine .inr ⟨[], g, rest, ?_, rfl, Nat.not_lt.mp hge, hafter⟩
          rw [heq]
          simp [prevOf, hstop]
        · refine .inr ⟨g :: between, gap, after, ?_, by rw [hsplit]; rfl, hle, hafter⟩
          rw [heq]
          simp

/-- `findEndGap` for an offset that is not before the start gap. -/
theorem findEndGap_ok {stop : Nat} (hne : ∀ g' ∈ gaps, g'.start < g'.stop)
    (hsorted : (g :: gaps).Pairwise fun g g' => g.stop < g'.start)
    (htop : ∃ g' ∈ g :: gaps, stop < g'.stop) (hle : g.start ≤ stop) :
    (findEndGap stop g gaps = .ok (.same, decide (stop < g.stop)) ∧ ∀ g' ∈ gaps, stop < g'.start) ∨
    ∃ between gap after,
      findEndGap stop g gaps = .ok (.later between gap after, decide (stop < gap.stop)) ∧
      gaps = between ++ gap :: after ∧ gap.start ≤ stop ∧ ∀ g' ∈ after, stop < g'.start := by
  obtain ⟨hg, hrest⟩ := pairwise_cons.mp hsorted
  simp only [findEndGap]
  split
  · rename_i hin
    refine .inl ⟨by simp [hin.2], fun g' hg' => ?_⟩
    have := hg g' hg'
    omega
  · rename_i hin
    have hstop : ¬ stop < g.stop := fun hlt => hin ⟨hle, hlt⟩
    rw [if_neg (Nat.not_lt.mpr hle)]
    rcases findEndGapLoop_ok [] hne hrest
      (((exists_mem_cons_iff _ _ _).mp htop).resolve_left hstop) with ⟨heq, hafter⟩ | hlater
    · refine .inl ⟨?_, hafter⟩
      rw [heq]
      simp [prevOf, hstop]
    · exact .inr hlater

/-- No gap reaches past the offset. -/
theorem findEndGapLoop_error : ∀ (passed : List ByteInterval),
    (∀ g ∈ gaps, g.start < g.stop ∧ g.stop ≤ x) →
      findEndGapLoop x passed gaps = .error .noGapFound := by
  induction gaps with
  | nil => exact fun _ _ => rfl
  | cons g rest ih =>
    intro passed h
    obtain ⟨⟨hlt, hle⟩, hrest⟩ := forall_mem_cons.mp h
    rw [findEndGapLoop, if_neg (by omega), if_neg (by omega)]
    exact ih _ hrest

theorem findStartGap_mem {offset : Nat} {f : StartGap} :
    ∀ {passed : List ByteInterval}, findStartGap offset passed gaps = .ok f →
      ∀ g ∈ f.gap :: f.after, g ∈ gaps := by
  induction gaps with
  | nil =>
    intro passed h
    cases h
  | cons g rest ih =>
    intro passed h
    rw [findStartGap] at h
    split at h
    · cases h
      exact fun g' hg' => hg'
    · split at h
      · cases h
        exact fun g' hg' => hg'
      · exact fun g' hg' => mem_cons_of_mem g (ih h g' hg')

/-! ## The queue -/

def blocks (s : FrameSorter) : Nat → Option Nat := fun k => (s.queue.lookup k).map (·.data.length)

/-- `s'` is `s` without some entries. -/
structure Loses (s s' : FrameSorter) : Prop where
  sub : ∀ k e, s'.queue.lookup k = some e → s.queue.lookup k = some e
  readPos : s'.readPos = s.readPos

/-- `s'` is `s` without the entries in `[a, b)`. -/
structure Drops (s : FrameSorter) (a b : Nat) (s' : FrameSorter) : Prop extends Loses s s' where
  covers : ∀ x, Covers (blocks s') x ↔ Covers (blocks s) x ∧ ¬ (a ≤ x ∧ x < b)

variable {s s' s'' : FrameSorter} {k : Nat} {e : FrameSorterEntry}

theorem loses_refl : Loses s s := ⟨fun _ _ h => h, rfl⟩

theorem Loses.trans (h : Loses s s') (h' : Loses s' s'') : Loses s s'' :=
  ⟨fun k e he => h.sub k e (h'.sub k e he), h'.readPos.trans h.readPos⟩

theorem blocks_some : blocks s k = some n ↔ ∃ e, s.queue.lookup k = some e ∧ e.data.length = n := by
  simp [blocks]

theorem blocks_of_lookup (h : s.queue.lookup k = some e) : blocks s k = some e.data.length := by
  simp [blocks, h]

theorem blocks_sub (hsub : ∀ k e, s'.queue.lookup k = some e →
    s.queue.lookup k = some e) (k n : Nat)
    (h : blocks s' k = some n) : blocks s k = some n := by
  obtain ⟨e, he, hn⟩ := blocks_some.mp h
  exact blocks_some.mpr ⟨e, hsub k e he, hn⟩

theorem Loses.tiling (h : Loses s s') (t : Tiling (blocks s)) : Tiling (blocks s') :=
  t.sub (blocks_sub h.sub)

theorem drops_refl (h : b ≤ a) : Drops s a b s :=
  ⟨loses_refl, fun x => ⟨fun hx => ⟨hx, by omega⟩, fun hx => hx.1⟩⟩

/-- One stretch after another. -/
theorem Drops.trans {c d : Nat} (h : Drops s a b s') (h' : Drops s' c d s'')
    (hcovers : ∀ x, Covers (blocks s) x →
      ((lo ≤ x ∧ x < hi) ↔ (a ≤ x ∧ x < b) ∨ (c ≤ x ∧ x < d))) : Drops s lo hi s'' := by
  refine ⟨h.toLoses.trans h'.toLoses, fun x => ?_⟩
  rw [h'.covers, h.covers]
  constructor
  · rintro ⟨⟨hx, h₁⟩, h₂⟩
    refine ⟨hx, fun hin => ?_⟩
    rcases (hcovers x hx).mp hin with hin | hin
    · exact h₁ hin
    · exact h₂ hin
  · rintro ⟨hx, hout⟩
    exact ⟨⟨hx, fun hin => hout ((hcovers x hx).mpr (.inl hin))⟩,
      fun hin => hout ((hcovers x hx).mpr (.inr hin))⟩

/-- Only what is covered matters. -/
theorem Drops.congr {c d : Nat} (h : Drops s a b s')
    (hcovers : ∀ x, Covers (blocks s) x → ((c ≤ x ∧ x < d) ↔ (a ≤ x ∧ x < b))) : Drops s c d s' :=
  h.trans (drops_refl (Nat.le_refl 0)) fun x hx => by
    have := hcovers x hx
    omega

theorem deleteEntry_loses (h : s.queue.lookup k = some e) : Loses s (s.deleteEntry k e) := by
  refine ⟨fun k' e' he => ?_, rfl⟩
  have he : (s.queue.erase k).lookup k' = some e' := he
  by_cases hne : k' = k
  · subst hne
    rw [AList.lookup_erase] at he
    cases he
  · rwa [AList.lookup_erase_ne hne] at he

/-- Deleting an entry cuts out its bytes. -/
theorem deleteEntry_cut (t : Tiling (blocks s)) (h : s.queue.lookup k = some e) :
    CutOut (blocks s) k (k + e.data.length) (blocks (s.deleteEntry k e)) := by
  refine Blocks.cutOut_erase t (blocks_of_lookup h) ?_ ?_
  · simp [blocks, deleteEntry, AList.lookup_erase]
  · intro k' hne
    simp [blocks, deleteEntry, AList.lookup_erase_ne hne]

/-- A loop that deletes entries: what it cuts out. -/
structure Cuts (s : FrameSorter) (a b : Nat) (s' : FrameSorter) : Prop extends Loses s s' where
  cut : CutOut (blocks s) a b (blocks s')

theorem cuts_refl : Cuts s a a s := ⟨loses_refl, Blocks.cutOut_refl⟩

theorem Cuts.trans {c : Nat} (h : Cuts s a b s') (h' : Cuts s' b c s'') : Cuts s a c s'' :=
  ⟨h.toLoses.trans h'.toLoses, h.cut.trans h'.cut⟩

theorem Cuts.drops (h : Cuts s a b s') : Drops s a b s' := ⟨h.toLoses, h.cut.covers⟩

theorem deleteEntry_cuts (t : Tiling (blocks s)) (h : s.queue.lookup k = some e) :
    Cuts s k (k + e.data.length) (s.deleteEntry k e) :=
  ⟨deleteEntry_loses h, deleteEntry_cut t h⟩

/-- The number of entries goes down, so the loops have enough fuel. -/
theorem length_keys_deleteEntry (h : s.queue.lookup k = some e) :
    (s.deleteEntry k e).queue.keys.length + 1 = s.queue.keys.length := by
  have hmem : k ∈ s.queue.keys := AList.mem_keys.mp (AList.lookup_isSome.mp (by simp [h]))
  have hpos := length_pos_of_mem hmem
  simp only [deleteEntry, AList.keys_erase, length_erase_of_mem hmem]
  omega

theorem lookup_eq_none_of_no_keys (h : s.queue.keys.length ≤ 0) : s.queue.lookup k = none := by
  rw [AList.lookup_eq_none, AList.mem_keys, eq_nil_of_length_eq_zero (Nat.le_zero.mp h)]
  exact not_mem_nil

/-- At a clear position without an entry, nothing is covered. -/
theorem not_covers_of_lookup (hc : Clear (blocks s) k) (h : s.queue.lookup k = none) :
    ¬ Covers (blocks s) k := by
  intro hx
  obtain ⟨n, hn⟩ := hc.block hx
  simp [blocks, h] at hn

/-- Behind an entry that was deleted the line is clear. -/
theorem clear_after (t : Tiling (blocks s)) (h : s.queue.lookup k = some e) :
    Clear (blocks (s.deleteEntry k e)) (k + e.data.length) := by
  intro k' n hk' hlt
  have hne : k' ≠ k := by
    rintro rfl
    simp [blocks, deleteEntry, AList.lookup_erase] at hk'
  have hold := blocks_sub (deleteEntry_loses h).sub k' n hk'
  rcases Nat.lt_or_gt_of_ne hne with hlt' | hgt
  · have := t.apart hold (blocks_of_lookup h) hlt'
    omega
  · have := t.apart (blocks_of_lookup h) hold hgt
    omega

/-- `deleteConsecutive` cuts out what is covered from a clear position on. -/
theorem deleteLoop_spec : ∀ (fuel : Nat) {s : FrameSorter} {pos : Nat}, Tiling (blocks s) →
    Clear (blocks s) pos → s.queue.keys.length ≤ fuel →
      ∃ b, Cuts s pos b (deleteLoop fuel s pos) ∧ ¬ Covers (blocks s) b
  | 0, s, pos, _, hc, hfuel =>
    ⟨pos, cuts_refl, not_covers_of_lookup hc (lookup_eq_none_of_no_keys hfuel)⟩
  | fuel + 1, s, pos, t, hc, hfuel => by
    simp only [deleteLoop]
    cases h : s.queue.lookup pos with
    | none => exact ⟨pos, cuts_refl, not_covers_of_lookup hc h⟩
    | some e =>
      have hcut := deleteEntry_cuts t h
      have hlen := length_keys_deleteEntry h
      obtain ⟨b, hb, hnot⟩ := deleteLoop_spec fuel (hcut.tiling t)
        (clear_after t h) (by omega)
      refine ⟨b, hcut.trans hb, fun hx => hnot ((hcut.cut.covers b).mpr ⟨hx, ?_⟩)⟩
      have := hb.cut.le
      omega

theorem deleteConsecutive_spec {pos : Nat} (t : Tiling (blocks s)) (hc : Clear (blocks s) pos) :
    ∃ b, Cuts s pos b (s.deleteConsecutive pos) ∧ ¬ Covers (blocks s) b :=
  deleteLoop_spec _ t hc le_rfl

/-- The replacement loop once an entry was replaced: it cuts out entries up to a
position that is not covered, or up to an entry that reaches past the frame. -/
theorem replaceLoop_spec (stop : Nat) : ∀ (fuel : Nat) {s : FrameSorter} {pos : Nat},
    Tiling (blocks s) → Clear (blocks s) pos → s.queue.keys.length ≤ fuel → pos ≤ stop →
      ∃ s' b, Cuts s pos b s' ∧ b ≤ stop ∧
        ((replaceLoop stop fuel s pos true = .stopped s' true none ∧ ¬ Covers (blocks s) b) ∨
        (replaceLoop stop fuel s pos true = .stopped s' true (some b) ∧
          ∀ x, b ≤ x → x ≤ stop → Covers (blocks s) x))
  | 0, s, pos, _, hc, hfuel, hle =>
    ⟨s, pos, cuts_refl, hle, .inl ⟨rfl, not_covers_of_lookup hc (lookup_eq_none_of_no_keys hfuel)⟩⟩
  | fuel + 1, s, pos, t, hc, hfuel, hle => by
    simp only [replaceLoop]
    cases h : s.queue.lookup pos with
    | none => exact ⟨s, pos, cuts_refl, hle, .inl ⟨rfl, not_covers_of_lookup hc h⟩⟩
    | some e =>
      simp only
      split_ifs with hlen'
      · have hcut := deleteEntry_cuts t h
        have hlen := length_keys_deleteEntry h
        obtain ⟨s', b, hb, hbs, hend⟩ := replaceLoop_spec stop fuel
          (hcut.tiling t) (clear_after t h) (by omega) (by omega)
        have hposb := hb.cut.le
        refine ⟨s', b, hcut.trans hb, hbs, ?_⟩
        rcases hend with ⟨heq, hnot⟩ | ⟨heq, hall⟩
        · refine .inl ⟨heq, fun hx => hnot ((hcut.cut.covers b).mpr ⟨hx, by omega⟩)⟩
        · exact .inr ⟨heq, fun x hbx hxs => ((hcut.cut.covers x).mp (hall x hbx hxs)).1⟩
      · obtain ⟨hshort, hequal⟩ := not_or.mp hlen'
        have hne : stop - pos ≠ e.data.length := fun heq => hequal ⟨trivial, heq⟩
        refine ⟨s, pos, cuts_refl, hle, .inr ⟨rfl, fun x hx hxs => ?_⟩⟩
        exact Blocks.covers_of_block (blocks_of_lookup h) hx (by omega)

/-! ## The invariant -/

/-- Entries tile what is not missing and not read. -/
structure Shape (s : FrameSorter) : Prop where
  ordered : Ordered s.gaps
  read : ∀ g ∈ s.gaps, s.readPos ≤ g.start
  tiling : Tiling (blocks s)
  covers : ∀ x, Covers (blocks s) x ↔ s.readPos ≤ x ∧ x < maxByteCount ∧ ¬ InGaps s.gaps x

/-- The byte was pushed. -/
def Received (s : FrameSorter) (x : Nat) : Prop := x < maxByteCount ∧ ¬ InGaps s.gaps x

variable {p : Piece} {d : List UInt8} {start stop : Nat}

theorem shape_new : Shape new := by
  refine ⟨⟨?_, ?_, ?_, ?_⟩, ?_, ?_, ?_⟩
  · intro g hg
    rw [mem_singleton.mp hg]
    exact Nat.two_pow_pos 61 |>.trans_le (by decide)
  · exact pairwise_singleton _ _
  · intro g hg
    rw [mem_singleton.mp hg]
  · exact ⟨_, mem_singleton_self _, rfl⟩
  · intro g hg
    exact Nat.zero_le _
  · refine ⟨fun h => ?_, fun h => ?_⟩ <;> simp [blocks, new] at h
  · intro x
    constructor
    · rintro ⟨k, n, h, -⟩
      simp [blocks, new] at h
    · rintro ⟨-, hlt, hnot⟩
      simp [new] at hnot
      omega

theorem not_received_new : ¬ Received new x := by
  simp [Received, new]

theorem Shape.not_covers (inv : Shape s) (hx : InGaps s.gaps x) : ¬ Covers (blocks s) x :=
  fun hc => ((inv.covers x).mp hc).2.2 hx

/-- The end of a gap is a clear position. -/
theorem clear_stop (hlt : g.start < g.stop)
    (hnot : ¬ Covers (blocks s) (g.stop - 1)) : Clear (blocks s) g.stop := by
  have hc := Blocks.clear_of_not_covers hnot
  rw [Nat.sub_add_cancel (by omega)] at hc
  exact hc

/-! ## Pieces -/

/-- The piece is the part `[p.start, p.stop)` of a frame with the data `d` at `start`. -/
structure Piece.Of (d : List UInt8) (start : Nat) (p : Piece) : Prop where
  le : start ≤ p.start
  data : p.data = (d.drop (p.start - start)).take (p.stop - p.start)
  length : p.data.length = p.stop - p.start

theorem Piece.of_frame : Piece.Of d start ⟨d, start, start + d.length, false⟩ := by
  refine ⟨le_rfl, ?_, ?_⟩
  · show d = (d.drop (start - start)).take (start + d.length - start)
    rw [Nat.sub_self, drop_zero, Nat.add_sub_cancel_left, take_length]
  · show d.length = start + d.length - start
    omega

theorem Piece.Of.cutFront {pos : Nat} (h : p.Of d start) (hle : p.start ≤ pos)
    (hlt : pos ≤ p.stop) :
    ∃ data, p.cutFront pos = .ok ⟨data, pos, p.stop, true⟩ ∧
      Piece.Of d start ⟨data, pos, p.stop, true⟩ := by
  have hlen := h.length
  have hstart := h.le
  refine ⟨p.data.drop (pos - p.start), ?_, hstart.trans hle, ?_, ?_⟩
  · rw [Piece.cutFront, if_neg (by omega)]
  · show p.data.drop (pos - p.start) = (d.drop (pos - start)).take (p.stop - pos)
    rw [h.data, drop_take, drop_drop]
    congr 1
    · omega
    · congr 1
      omega
  · show (p.data.drop (pos - p.start)).length = p.stop - pos
    rw [length_drop]
    omega

theorem Piece.Of.cutBack {pos : Nat} (h : p.Of d start) (hle : p.start ≤ pos) (hlt : pos ≤ p.stop) :
    ∃ data, p.cutBack pos = .ok ⟨data, p.start, pos, true⟩ ∧
      Piece.Of d start ⟨data, p.start, pos, true⟩ := by
  have hlen := h.length
  refine ⟨p.data.take (pos - p.start), ?_, h.le, ?_, ?_⟩
  · rw [Piece.cutBack, if_neg (by omega)]
  · show p.data.take (pos - p.start) = (d.drop (p.start - start)).take (pos - p.start)
    rw [h.data, take_take, Nat.min_eq_left (by omega)]
  · show (p.data.take (pos - p.start)).length = pos - p.start
    rw [length_take]
    omega

/-- What `push` has done when it comes to `enqueue`: the entries in the way of the piece are
dropped, and the piece is taken out of the gaps. -/
structure Placed (d : List UInt8) (s : FrameSorter) (start stop : Nat) (r : FrameSorter × Piece) :
    Prop where
  of : r.2.Of d start
  drops : Drops s r.2.start r.2.stop r.1
  ordered : Ordered r.1.gaps
  gaps : ∀ x, InGaps r.1.gaps x ↔ InGaps s.gaps x ∧ ¬ (r.2.start ≤ x ∧ x < r.2.stop)
  lt : r.2.start < r.2.stop
  le : r.2.stop ≤ stop
  max : stop ≤ maxByteCount
  read : s.readPos ≤ r.2.start
  rest : ∀ x, start ≤ x → x < stop → ¬ (r.2.start ≤ x ∧ x < r.2.stop) → ¬ InGaps s.gaps x

/-- The sorter after a piece of the frame went into the queue. -/
def Enqueued (d : List UInt8) (s : FrameSorter) (start stop : Nat) (cb : Option Nat)
    (s' : FrameSorter) : Prop :=
  ∃ r, Placed d s start stop r ∧ r.1.enqueue r.2 cb = .ok s'

/-- `s'` is the sorter `s` after a push. -/
structure Grows (d : List UInt8) (start stop : Nat) (s s' : FrameSorter) : Prop where
  shape : Shape s'
  readPos : s'.readPos = s.readPos
  received : ∀ x, Received s' x ↔ Received s x ∨ (start ≤ x ∧ x < stop)
  entries : ∀ k e, s'.queue.lookup k = some e → s.queue.lookup k = some e ∨
    (start ≤ k ∧ ∃ n, e.data = (d.drop (k - start)).take n)

section

variable {r : FrameSorter × Piece} (h : Placed d s start stop r)

include h

theorem Placed.enqueue (cb : Option Nat) : (r.1.enqueue r.2 cb).Meets (Enqueued d s start stop cb)
    (· = Failure.tooManyGaps) := by
  cases henq : r.1.enqueue r.2 cb with
  | ok s' => exact ⟨r, h, henq⟩
  | error e =>
    simp only [FrameSorter.enqueue] at henq
    split_ifs at henq
    cases henq
    rfl

theorem Placed.shape (inv : Shape s) (he : e.data = r.2.data) (done : List Nat) :
    Shape { r.1 with queue := r.1.queue.insert r.2.start e, done := done } := by
  have hlt := h.lt
  have hstop := h.le
  have hmax := h.max
  have hlen := h.of.length
  have hend : r.2.start + r.2.data.length = r.2.stop := by omega
  have hself : ((r.1.queue.insert r.2.start e).lookup r.2.start).map (·.data.length) =
      some r.2.data.length := by
    simp [AList.lookup_insert, he]
  have hother : ∀ k, k ≠ r.2.start →
      ((r.1.queue.insert r.2.start e).lookup k).map (·.data.length) = blocks r.1 k := by
    intro k hne
    simp [blocks, AList.lookup_insert_ne hne]
  have hfree : ∀ x, r.2.start ≤ x → x < r.2.start + r.2.data.length → ¬ Covers (blocks r.1) x := by
    intro x hx hx' hc
    exact ((h.drops.covers x).mp hc).2 ⟨hx, by omega⟩
  have htiling := h.drops.tiling inv.tiling
  refine ⟨h.ordered, fun g hg => ?_, ?_, fun x => ?_⟩
  · obtain ⟨g', hg', hle, -⟩ := ((h.gaps _).mp (h.ordered.inGaps_start hg)).1
    have := inv.read g' hg'
    exact (h.drops.readPos ▸ this).trans hle
  · exact Blocks.tiling_insert hself hother hfree (by omega) htiling
  · refine (Blocks.covers_insert hself hother hfree (by omega) htiling x).trans ?_
    have hread := h.read
    rw [h.drops.covers, inv.covers, hend]
    show _ ↔ r.1.readPos ≤ x ∧ x < maxByteCount ∧ ¬ InGaps r.1.gaps x
    rw [h.drops.readPos, h.gaps]
    constructor
    · rintro (⟨⟨h₁, h₂, h₃⟩, -⟩ | ⟨h₁, h₂⟩)
      · exact ⟨h₁, h₂, fun h => h₃ h.1⟩
      · exact ⟨by omega, by omega, fun h => h.2 ⟨h₁, h₂⟩⟩
    · rintro ⟨h₁, h₂, h₃⟩
      by_cases hx : r.2.start ≤ x ∧ x < r.2.stop
      · exact .inr hx
      · exact .inl ⟨⟨h₁, h₂, fun h => h₃ ⟨h, hx⟩⟩, hx⟩

theorem Placed.received (x : Nat) : Received r.1 x ↔ Received s x ∨ (start ≤ x ∧ x < stop) := by
  have hstart := h.of.le
  have hstop := h.le
  have hmax := h.max
  rw [Received, Received, h.gaps]
  constructor
  · rintro ⟨hx, hnot⟩
    by_cases hin : r.2.start ≤ x ∧ x < r.2.stop
    · exact .inr ⟨by omega, by omega⟩
    · exact .inl ⟨hx, fun hg => hnot ⟨hg, hin⟩⟩
  · rintro (⟨hx, hnot⟩ | ⟨h₁, h₂⟩)
    · exact ⟨hx, fun hg => hnot hg.1⟩
    · exact ⟨by omega, fun hg => h.rest x h₁ h₂ hg.2 hg.1⟩

omit h in
/-- **The piece goes in.** -/
theorem Enqueued.grows {cb : Option Nat} (inv : Shape s) (h : Enqueued d s start stop cb s') :
    Grows d start stop s s' := by
  obtain ⟨r, h, henq⟩ := h
  simp only [enqueue] at henq
  split at henq
  · cases henq
  · cases henq
    refine ⟨h.shape inv rfl _, h.drops.readPos, h.received, fun k e he => ?_⟩
    by_cases hk : k = r.2.start
    · subst hk
      rw [AList.lookup_insert] at he
      cases he
      exact .inr ⟨h.of.le, _, h.of.data⟩
    · rw [AList.lookup_insert_ne hk] at he
      exact .inl (h.drops.sub k e he)

end

/-! ## Where a frame starts -/

/-- The frame `[start, stop)` and the gap `findStartGap` found for it. -/
structure Site (s : FrameSorter) (f : StartGap) (start stop : Nat) : Prop where
  inv : Shape s
  gaps : s.gaps = f.before ++ f.gap :: f.after
  before : ∀ g ∈ f.before, g.stop < start
  le : start ≤ f.gap.stop
  inGap : f.inGap = decide (f.gap.start ≤ start)
  reach : f.gap.start < stop
  lt : start < stop
  max : stop < maxByteCount

variable {f : StartGap} {hasReplaced : Bool}

namespace Site

variable (h : Site s f start stop)

include h

theorem gap_mem : f.gap ∈ s.gaps := by
  rw [h.gaps]
  simp

theorem gap_lt : f.gap.start < f.gap.stop :=
  h.inv.ordered.nonempty _ h.gap_mem

theorem after_gt : ∀ g ∈ f.after, f.gap.stop < g.start := by
  have hs := h.inv.ordered.sorted
  rw [h.gaps] at hs
  exact (pairwise_cons.mp (pairwise_append.mp hs).2.1).1

theorem in_gap (hx : f.gap.start ≤ x) (hx' : x < f.gap.stop) :
    InGaps s.gaps x := ⟨f.gap, h.gap_mem, hx, hx'⟩

theorem not_inGaps (hx : start ≤ x) (hlt : x < f.gap.start) :
    ¬ InGaps s.gaps x := h.inv.ordered.not_inGaps h.gaps h.before hx hlt

/-- Behind the start gap, before the gaps after it, nothing is missing. -/
theorem not_inGaps_after (hx : f.gap.stop ≤ x) (hxs : start ≤ x)
    (hafter : ∀ g ∈ f.after, x < g.start) :
    ¬ InGaps s.gaps x := by
  rw [h.gaps]
  refine not_inGaps_beside (fun g hg => ?_) (by omega) hafter
  have := h.before g hg
  omega

/-- What is not missing from the read position on is covered. -/
theorem covers (hread : s.readPos ≤ x) (hx : x ≤ stop)
    (hnot : ¬ InGaps s.gaps x) : Covers (blocks s) x := by
  have := h.max
  exact (h.inv.covers x).mpr ⟨hread, by omega, hnot⟩

/-- At the end of the start gap there is data. -/
theorem covers_stop (heq : start = f.gap.stop) : Covers (blocks s) start := by
  have hlt := h.gap_lt
  have hread := h.inv.read _ h.gap_mem
  refine h.covers (by omega) h.lt.le (h.not_inGaps_after (by omega) (by omega) fun g hg => ?_)
  have := h.after_gt g hg
  omega

end Site

/-- The piece starts before the end of the start gap: before the gap, cut or with
the entries there replaced, or within it. -/
structure Inside (d : List UInt8) (s : FrameSorter) (f : StartGap) (start stop : Nat)
    (s' : FrameSorter) (p : Piece) (hasReplaced : Bool) : Prop where
  of : p.Of d start
  stop_eq : p.stop = stop
  lt : p.start < f.gap.stop
  front : p.start = start ∨ (start ≤ p.start ∧ p.start = f.gap.start)
  side : p.start ≤ f.gap.start ∨ hasReplaced = false
  drops : Drops s p.start f.gap.start s'
  read : s.readPos ≤ p.start

/-- The piece starts where the start gap ends, and replaces entries up to `b`. -/
structure AtEnd (d : List UInt8) (s : FrameSorter) (f : StartGap) (start stop : Nat)
    (s' : FrameSorter) (p : Piece) (b : Nat) : Prop where
  of : p.Of d start
  start_eq : start = f.gap.stop
  front : p.start = start
  cuts : Cuts s start b s'
  lt : start < b
  le : b ≤ stop
  back : (p.stop = b ∧ ∀ x, start ≤ x → x ≤ stop → Covers (blocks s) x) ∨
    (p.stop = stop ∧ ¬ Covers (blocks s) b)

theorem replaceLoop_none (fuel : Nat) (h : s.queue.lookup start = none) :
    replaceLoop stop fuel s start false = .stopped s false none := by
  cases fuel with
  | zero => rfl
  | succ fuel => simp only [replaceLoop, h]

theorem replaceLoop_some (site : Site s f start stop) (h : s.queue.lookup start = some e) :
    (replaceLoop stop s.queue.keys.length s start false = .duplicate ∧
      ∀ x, start ≤ x → x < stop → Covers (blocks s) x) ∨
    ∃ s' b, Cuts s start b s' ∧ start < b ∧ b ≤ stop ∧
      ((replaceLoop stop s.queue.keys.length s start false = .stopped s' true none ∧
        ¬ Covers (blocks s) b) ∨
      (replaceLoop stop s.queue.keys.length s start false = .stopped s' true (some b) ∧
        ∀ x, start ≤ x → x ≤ stop → Covers (blocks s) x)) := by
  have t := site.inv.tiling
  have hlen := length_keys_deleteEntry h
  have hpos := t.pos (blocks_of_lookup h)
  rw [← hlen]
  simp only [replaceLoop, h]
  by_cases hshort : e.data.length < stop - start
  · right
    rw [if_pos (.inl hshort)]
    have hcut := deleteEntry_cuts t h
    obtain ⟨s', b, hb, hbs, hend⟩ := replaceLoop_spec stop (s.deleteEntry start e).queue.keys.length
      (hcut.tiling t) (clear_after t h) le_rfl (by omega)
    have hle := hb.cut.le
    have hall := hcut.trans hb
    refine ⟨s', b, hall, by omega, hbs, ?_⟩
    rcases hend with ⟨heq, hnot⟩ | ⟨heq, hrest⟩
    · refine .inl ⟨heq, fun hx => hnot ((hcut.cut.covers b).mpr ⟨hx, by omega⟩)⟩
    · refine .inr ⟨heq, fun x hx hxs => ?_⟩
      rcases Nat.lt_or_ge x b with hlt | hge
      · exact hall.cut.covered hx hlt
      · exact ((hcut.cut.covers x).mp (hrest x hge hxs)).1
  · left
    rw [if_neg (by simp [hshort])]
    refine ⟨rfl, fun x hx hxs => Blocks.covers_of_block (blocks_of_lookup h) hx ?_⟩
    omega

/-- **Where the piece starts.**  The frame is a duplicate, or the piece starts
before the end of the start gap or exactly there. -/
theorem opening (site : Site s f start stop) (hof : Piece.Of d start ⟨d, start, stop, false⟩) :
    (replaceLoop stop s.queue.keys.length s start false = .duplicate ∧
      ∀ x, start ≤ x → x < stop → Covers (blocks s) x) ∨ ∃ s' hasReplaced cutAt p,
      replaceLoop stop s.queue.keys.length s start false = .stopped s' hasReplaced cutAt ∧
      ((cutReplaced ⟨d, start, stop, false⟩ cutAt).bind fun p =>
        cutToStartGap p f hasReplaced) = .ok p ∧ (Inside d s f start stop s' p hasReplaced ∨
        (hasReplaced = true ∧ ∃ b, AtEnd d s f start stop s' p b)) := by
  have hgap := site.gap_lt
  have hread := site.inv.read _ site.gap_mem
  have hreach := site.reach
  have hle := site.le
  cases h : s.queue.lookup start with
  | none =>
    right
    have hstop : start < f.gap.stop := by
      rcases Nat.lt_or_eq_of_le hle with hlt | heq
      · exact hlt
      · -- There would be an entry at the end of the gap.
        have hclear := clear_stop hgap
          (site.inv.not_covers (site.in_gap (by omega) (by omega)))
        rw [← heq] at hclear
        exact absurd (site.covers_stop heq) (not_covers_of_lookup hclear h)
    by_cases hin : f.gap.start ≤ start
    · refine ⟨s, false, none, ⟨d, start, stop, false⟩, replaceLoop_none _ h, ?_, .inl ?_⟩
      · simp [cutReplaced, cutToStartGap, site.inGap, hin, Except.bind]
      · exact ⟨hof, rfl, hstop, .inl rfl, .inr rfl, drops_refl hin, by simpa using hread.trans hin⟩
    · have hcut : start ≤ f.gap.start := Nat.le_of_not_le hin
      obtain ⟨data, hok, hof'⟩ := hof.cutFront hcut hreach.le
      refine ⟨s, false, none, _, replaceLoop_none _ h, ?_, .inl ⟨hof', rfl, hgap,
        .inr ⟨hcut, rfl⟩, .inr rfl, drops_refl le_rfl, hread⟩⟩
      simp only [cutReplaced, cutToStartGap, site.inGap, hin, Except.bind]
      rw [if_pos (by simp)]
      exact hok
  | some e =>
    have hcovers : Covers (blocks s) start := Blocks.covers_of_block (blocks_of_lookup h)
      le_rfl (Nat.lt_add_of_pos_right (site.inv.tiling.pos (blocks_of_lookup h)))
    have hnot := ((site.inv.covers start).mp hcovers)
    rcases replaceLoop_some site h with hdup | ⟨s', b, hcut, hsb, hbs, hend⟩
    · exact .inl hdup
    right
    by_cases hin : f.gap.start ≤ start
    · -- The start is not missing, so it is the end of the gap.
      have heq : start = f.gap.stop := by
        by_contra hne
        exact hnot.2.2 (site.in_gap hin (by omega))
      rcases hend with ⟨hloop, hb⟩ | ⟨hloop, hall⟩
      · refine ⟨s', true, none, ⟨d, start, stop, false⟩, hloop, ?_, .inr ⟨rfl, b, ?_⟩⟩
        · simp [cutReplaced, cutToStartGap, Except.bind]
        · exact ⟨hof, heq, rfl, hcut, hsb, hbs, .inr ⟨rfl, hb⟩⟩
      · obtain ⟨data, hok, hof'⟩ := hof.cutBack hsb.le hbs
        refine ⟨s', true, some b, _, hloop, ?_, .inr ⟨rfl, b, hof', heq, rfl, hcut, hsb, hbs,
          .inl ⟨rfl, hall⟩⟩⟩
        rw [cutReplaced, hok]
        simp [cutToStartGap, Except.bind]
    · have hgapcov := site.inv.not_covers (site.in_gap le_rfl hgap)
      rcases hend with ⟨hloop, hb⟩ | ⟨hloop, hall⟩
      · have hle' : b ≤ f.gap.start := hcut.cut.le_of_not_covers (by omega) hgapcov
        have hge : f.gap.start ≤ b := by
          by_contra hlt'
          refine hb (site.covers (by omega) hbs (site.not_inGaps (by omega) (by omega)))
        obtain rfl : b = f.gap.start := by omega
        refine ⟨s', true, none, ⟨d, start, stop, false⟩, hloop, ?_, .inl ?_⟩
        · simp [cutReplaced, cutToStartGap, Except.bind]
        · exact ⟨hof, rfl, by show start < _; omega, .inl rfl, .inl (by show start ≤ _; omega),
            hcut.drops, hnot.1⟩
      · exact absurd (hall f.gap.start (by omega) (by omega)) hgapcov

/-! ## Where a frame ends -/

/-- What remains of `[lo, hi)` without `[start, stop)`. -/
def carve (lo hi start stop : Nat) : List ByteInterval :=
  (if start ≤ lo then [] else [⟨lo, start⟩]) ++ if hi ≤ stop then [] else [⟨stop, hi⟩]

theorem inGaps_carve (h₁ : start < stop) (h₂ : start ≤ hi) (h₃ : lo ≤ stop) :
    InGaps (carve lo hi start stop) x ↔ (lo ≤ x ∧ x < hi) ∧ ¬ (start ≤ x ∧ x < stop) := by
  simp only [carve]
  split <;> split <;> simp <;> omega

theorem mem_carve (h₂ : start ≤ hi) (h₃ : lo ≤ stop) (hg : g ∈ carve lo hi start stop) :
    lo ≤ g.start ∧ g.start < g.stop ∧ g.stop ≤ hi := by
  simp only [carve, mem_append] at hg
  rcases hg with hg | hg
  · split at hg
    · cases hg
    · rw [mem_singleton.mp hg]
      exact ⟨le_rfl, by show lo < start; omega, h₂⟩
  · split at hg
    · cases hg
    · rw [mem_singleton.mp hg]
      exact ⟨h₃, by show stop < hi; omega, le_rfl⟩

theorem sorted_carve (h : start < stop) :
    (carve lo hi start stop).Pairwise fun g g' => g.stop < g'.start := by
  simp only [carve]
  split <;> split <;> simp [h]

/-- A stretch of gaps that spans `[lo, hi)`, but for what the piece covers. -/
structure Stretch (s : FrameSorter) (p : Piece) (before stretch after : List ByteInterval)
    (lo hi : Nat) : Prop where
  gaps : s.gaps = before ++ stretch ++ after
  before : ∀ g ∈ before, g.stop < lo ∧ g.stop ≤ p.start
  after : ∀ g ∈ after, hi < g.start ∧ p.stop ≤ g.start
  bound : hi ≤ maxByteCount
  within : ∀ g ∈ stretch, g.stop ≤ hi
  spans : ∀ x, ¬ (p.start ≤ x ∧ x < p.stop) → (InGaps stretch x ↔ lo ≤ x ∧ x < hi)
  lt : p.start < p.stop
  start_le : p.start ≤ hi
  le_stop : lo ≤ p.stop

/-- The piece is taken out of the gaps. -/
theorem Stretch.inGaps (c : Stretch s p before stretch after lo hi) (x : Nat) :
    InGaps (before ++ carve lo hi p.start p.stop ++ after) x ↔
      InGaps s.gaps x ∧ ¬ (p.start ≤ x ∧ x < p.stop) := by
  rw [c.gaps]
  simp only [inGaps_append, inGaps_carve c.lt c.start_le c.le_stop]
  by_cases hx : p.start ≤ x ∧ x < p.stop
  · have hb : ¬ InGaps before x := not_inGaps_of_stop_le fun g hg => (c.before g hg).2.trans hx.1
    have ha : ¬ InGaps after x :=
      not_inGaps_of_lt_start fun g hg => hx.2.trans_le (c.after g hg).2
    simp only [hb, ha, hx, and_self, not_true_eq_false, and_false, or_false]
  · simp only [hx, c.spans x hx, not_false_eq_true, and_true]

theorem Stretch.ordered (c : Stretch s p before stretch after lo hi) (ho : Ordered s.gaps)
    (hmax : p.stop < maxByteCount) : Ordered (before ++ carve lo hi p.start p.stop ++ after) := by
  rw [c.gaps] at ho
  refine ho.splice (fun g hg => (c.before g hg).1) (fun g hg => (c.after g hg).1) c.bound
    (fun g hg => mem_carve c.start_le c.le_stop hg) (sorted_carve c.lt) ?_
  rintro ⟨g, hg, htop⟩
  have := c.within g hg
  have := c.bound
  refine ⟨⟨p.stop, hi⟩, ?_, by show hi = maxByteCount; omega⟩
  rw [carve, if_neg (c := hi ≤ p.stop) (by omega)]
  simp

/-- A piece that is taken out of a stretch of gaps, where everything in its way was dropped. -/
theorem Stretch.placed (site : Site s f start stop)
    (c : Stretch s p before stretch after lo hi) (hof : p.Of d start) (hle : p.stop ≤ stop)
    (hread : s.readPos ≤ p.start) (hd : Drops s p.start p.stop s')
    (hrest : ∀ x, start ≤ x → x < stop → ¬ (p.start ≤ x ∧ x < p.stop) → ¬ InGaps s.gaps x) :
    Placed d s start stop
      ({ s' with gaps := before ++ carve lo hi p.start p.stop ++ after }, p) := by
  have hmax := site.max
  exact ⟨hof, ⟨{ hd with }, hd.covers⟩,
    c.ordered site.inv.ordered (by omega), c.inGaps, c.lt, hle, hmax.le, hread, hrest⟩

/-- A piece that starts before the end of the end gap ends there at the latest. -/
theorem cutToEndGap_ok {hi : Nat} (hof : p.Of d start) (hlt : p.start < hi) :
    ∃ p', cutToEndGap p (decide (p.stop < hi)) hi = .ok p' ∧ p'.start = p.start ∧
      p'.stop = min p.stop hi ∧ p'.Of d start := by
  simp only [cutToEndGap, decide_eq_false_iff_not]
  by_cases hcut : hi < p.stop
  · obtain ⟨data, hok, hof'⟩ := hof.cutBack hlt.le hcut.le
    refine ⟨⟨data, p.start, hi, true⟩, ?_, rfl, ?_, hof'⟩
    · rw [if_pos ⟨by omega, by omega, hcut⟩]
      exact hok
    · show hi = min p.stop hi
      omega
  · refine ⟨p, ?_, rfl, by omega, hof⟩
    rw [if_neg (by omega)]

/-- The loop over the gaps between: everything up to the end gap goes.  What is
covered between two gaps is covered from the first of them on (`hdown`). -/
theorem deleteGaps_spec {e : ByteInterval} (he : e.start < e.stop) :
    ∀ {between : List ByteInterval} {g : ByteInterval} {s : FrameSorter}, Tiling (blocks s) →
      (∀ g' ∈ g :: between, g'.start < g'.stop) →
      (g :: between ++ [e]).Pairwise (fun g g' => g.stop < g'.start) →
      (∀ x, InGaps (g :: between ++ [e]) x → ¬ Covers (blocks s) x) →
      (∀ x y, g.stop ≤ y → y ≤ x → x < e.start → (∀ z, y ≤ z → z ≤ x → ¬ InGaps between z) →
        Covers (blocks s) x → Covers (blocks s) y) →
      ∃ s', deleteGaps e between (s.deleteConsecutive g.stop) = .ok ([], s') ∧
        Drops s g.stop e.start s'
  | [], g, s, t, hne, hsorted, hgap, hdown => by
    have hg := hne g mem_cons_self
    have hge : g.stop < e.start := by simpa using hsorted
    have hclear := clear_stop hg (hgap (g.stop - 1) (by simp; omega))
    obtain ⟨b, hcuts, hb⟩ := deleteConsecutive_spec t hclear
    have hbe : b ≤ e.start :=
      hcuts.cut.le_of_not_covers (by omega) (hgap e.start (by simp [he]))
    refine ⟨_, if_neg (by omega), hcuts.drops.congr fun x hx => ?_⟩
    constructor
    · rintro ⟨h₁, h₂⟩
      refine ⟨h₁, ?_⟩
      by_contra hbx
      exact hb (hdown x b hcuts.cut.le (by omega) h₂ (fun _ _ _ => inGaps_nil) hx)
    · rintro ⟨h₁, h₂⟩
      exact ⟨h₁, by omega⟩
  | n :: rest, g, s, t, hne, hsorted, hgap, hdown => by
    have hg := hne g mem_cons_self
    have hn := hne n (by simp)
    obtain ⟨hfirst, htail⟩ := pairwise_cons.mp hsorted
    have hgn : g.stop < n.start := hfirst n (by simp)
    obtain ⟨hnrest, -⟩ := pairwise_cons.mp htail
    have hnend : n.stop < e.start := hnrest e (by simp)
    have hclear := clear_stop hg (hgap (g.stop - 1) (by simp; omega))
    obtain ⟨b, hcuts, hb⟩ := deleteConsecutive_spec t hclear
    have hbn : b ≤ n.start :=
      hcuts.cut.le_of_not_covers (by omega) (hgap n.start (by simp [hn]))
    -- Behind the next gap nothing has changed yet.
    have hsame : ∀ y, n.stop ≤ y →
        (Covers (blocks (s.deleteConsecutive g.stop)) y ↔ Covers (blocks s) y) := by
      intro y hy
      rw [hcuts.cut.covers]
      exact ⟨fun h => h.1, fun h => ⟨h, by omega⟩⟩
    obtain ⟨s', hok, hdrops⟩ := deleteGaps_spec he (hcuts.tiling t)
      (fun g' hg' => hne g' (mem_cons_of_mem _ hg')) htail
      (fun x hx hc => hgap x (by simp only [cons_append, inGaps_cons] at hx ⊢; tauto)
        ((hcuts.cut.covers x).mp hc).1)
      (by
        intro x y hy hyx hxe hclean hx
        rw [hsame y hy]
        rw [hsame x (hy.trans hyx)] at hx
        refine hdown x y (by omega) hyx hxe (fun z hz hzx => ?_) hx
        rw [inGaps_cons]
        rintro (hin | hin)
        · omega
        · exact hclean z hz hzx hin)
    refine ⟨s', ?_, hcuts.drops.trans hdrops fun x hx => ?_⟩
    · rw [deleteGaps, if_pos hnend]
      exact hok
    · have hxn : ¬ (n.start ≤ x ∧ x < n.stop) := fun hin => hgap x (by simp [hin]) hx
      constructor
      · rintro ⟨h₁, h₂⟩
        rcases Nat.lt_or_ge x n.start with hxlt | hxge
        · left
          refine ⟨h₁, ?_⟩
          by_contra hbx
          refine hb (hdown x b hcuts.cut.le (by omega) h₂ (fun z hz hzx => ?_) hx)
          refine not_inGaps_of_lt_start fun g' hg' => ?_
          rcases mem_cons.mp hg' with rfl | hg'
          · omega
          · have := hnrest g' (by simp [hg'])
            omega
        · exact .inr ⟨by omega, h₂⟩
      · rintro (⟨h₁, h₂⟩ | ⟨h₁, h₂⟩)
        · exact ⟨h₁, by omega⟩
        · exact ⟨by omega, h₂⟩

/-! ### In the same gap -/

/-- A piece that starts inside leaves what is around it. -/
theorem gapsSame_inside {p' : Piece} (hstart : p'.start = p.start)
    (hstop : p'.stop = min p.stop f.gap.stop)
    (hside : p.start ≤ f.gap.start ∨ hasReplaced = false) :
    gapsSame p' f (adjustStartGap p f.gap hasReplaced) =
      f.before ++ carve f.gap.start f.gap.stop p'.start p'.stop ++ f.after := by
  by_cases hle : p.start ≤ f.gap.start
  · by_cases hcover : f.gap.stop ≤ p.stop
    · have hend : f.gap.stop ≤ p'.stop := by omega
      simp [gapsSame, adjustStartGap, carve, hle, hcover, hstart, hend]
    · have hend : p'.stop = p.stop := by omega
      simp [gapsSame, adjustStartGap, carve, hle, hcover, hstart, hend]
  · have hreplaced : hasReplaced = false := hside.resolve_left hle
    by_cases hcover : f.gap.stop ≤ p'.stop
    · have hend : p'.stop = f.gap.stop := by omega
      simp [gapsSame, adjustStartGap, carve, hle, hreplaced, hstart, hend]
    · have hend : p'.stop ≠ f.gap.stop := by omega
      simp [gapsSame, adjustStartGap, carve, hle, hreplaced, hstart, hend, hcover]

/-- The gaps before the start gap end before it. -/
theorem Site.before_lt (site : Site s f start stop) : ∀ g ∈ f.before, g.stop < f.gap.start := by
  intro g hg
  have hs := site.inv.ordered.sorted
  rw [site.gaps] at hs
  exact (pairwise_append.mp hs).2.2 g hg f.gap mem_cons_self

theorem stretch_same (p : Piece) (site : Site s f start stop)
    (hafter : ∀ g ∈ f.after, stop < g.start) (h₁ : start ≤ p.start) (h₂ : p.start < p.stop)
    (h₃ : p.stop ≤ stop) (h₄ : p.start ≤ f.gap.stop) (h₅ : f.gap.start ≤ p.stop) :
    Stretch s p f.before [f.gap] f.after f.gap.start f.gap.stop := by
  refine ⟨by rw [site.gaps]; simp, fun g hg => ?_, fun g hg => ?_,
    site.inv.ordered.bound _ site.gap_mem, fun g hg => ?_, fun x _ => by simp, h₂, h₄, h₅⟩
  · have := site.before g hg
    exact ⟨site.before_lt g hg, by omega⟩
  · have := hafter g hg
    exact ⟨site.after_gt g hg, by omega⟩
  · rw [mem_singleton.mp hg]

theorem Inside.start_lt (hi : Inside d s f start stop s' p hasReplaced)
    (site : Site s f start stop) : start ≤ p.start ∧ p.start < p.stop := by
  have h₁ := hi.stop_eq
  have h₂ := site.lt
  have h₃ := site.reach
  have h₄ := hi.front
  omega

section Same

variable (site : Site s f start stop) (hafter : ∀ g ∈ f.after, stop < g.start)
  (cb : Option Nat)

include site hafter

theorem fill_same_inside (hi : Inside d s f start stop s' p hasReplaced) :
    (s'.fill p cb f hasReplaced (decide (stop < f.gap.stop)) .same).Meets
      (Enqueued d s start stop cb) (· = Failure.tooManyGaps) := by
  have hgap := site.gap_lt
  have hreach := site.reach
  have hlt := hi.lt
  have hse := hi.stop_eq
  have hside := hi.front
  obtain ⟨hfront, hstart⟩ := hi.start_lt site
  obtain ⟨p', hok, hs', hstop', hof⟩ := cutToEndGap_ok hi.of hlt
  rw [hse] at hok
  refine Meets.bind ?_ fun _ h => h
  rw [hok, meets_ok, gapsSame_inside hs' hstop' hi.side]
  have hstretch := stretch_same p' site hafter (by omega) (by omega) (by omega) (by omega)
    (by omega)
  refine (hstretch.placed site hof (by omega) (hs' ▸ hi.read) (hi.drops.congr fun x hx => ?_)
    fun x hx hxs hout => ?_).enqueue cb
  · have hnot : ¬ (f.gap.start ≤ x ∧ x < f.gap.stop) :=
      fun hin => site.inv.not_covers (site.in_gap hin.1 hin.2) hx
    omega
  · rcases Nat.lt_or_ge x f.gap.start with hxg | hxg
    · exact site.not_inGaps hx hxg
    · exact site.not_inGaps_after (by omega) hx fun g hg => hxs.trans (hafter g hg)

theorem fill_same_atEnd (he : AtEnd d s f start stop s' p b) :
    (s'.fill p cb f true (decide (stop < f.gap.stop)) .same).Meets
      (Enqueued d s start stop cb) (· = Failure.tooManyGaps) := by
  have hgap := site.gap_lt
  have hstart := he.start_eq
  have hfront := he.front
  have hsb := he.lt
  have hbs := he.le
  have hread := site.inv.read _ site.gap_mem
  have hall : ∀ x, start ≤ x → x ≤ stop → ¬ InGaps s.gaps x :=
    fun x hx hxs => site.not_inGaps_after (by omega) hx fun g hg => hxs.trans_lt (hafter g hg)
  have hback : p.stop = b := by
    rcases he.back with ⟨heq, -⟩ | ⟨-, hnot⟩
    · exact heq
    · exact absurd (site.covers (by omega) hbs (hall b (by omega) hbs)) hnot
  refine Meets.bind ?_ fun _ h => h
  rw [cutToEndGap, if_neg (by omega), meets_ok]
  have hgaps : gapsSame p f (adjustStartGap p f.gap true) =
      f.before ++ carve f.gap.start f.gap.stop p.start p.stop ++ f.after := by
    have h₁ : ¬ f.gap.stop ≤ f.gap.start := by omega
    have h₂ : f.gap.stop ≤ p.stop := by omega
    have h₃ : p.start = f.gap.stop := by omega
    simp [gapsSame, adjustStartGap, carve, h₁, h₂, h₃]
  rw [hgaps]
  have hstretch := stretch_same p site hafter (by omega) (by omega) (by omega) (by omega)
    (by omega)
  refine (hstretch.placed site he.of (by omega) (by omega) ?_ fun x hx hxs _ =>
    hall x hx (by omega)).enqueue cb
  rw [hfront, hback]
  exact he.cuts.drops

end Same

/-! ### In a later gap -/

/-- The end gap of a frame, past the gaps `between`. -/
structure EndSite (f : StartGap) (stop : Nat) (between : List ByteInterval) (e : ByteInterval)
    (after : List ByteInterval) : Prop where
  split : f.after = between ++ e :: after
  le : e.start ≤ stop
  after : ∀ g ∈ after, stop < g.start

variable {between : List ByteInterval} {e : ByteInterval}

namespace EndSite

variable (he : EndSite f stop between e after)

include he

variable (site : Site s f start stop)

include site

theorem gaps_eq : s.gaps = f.before ++ (f.gap :: between ++ [e]) ++ after := by
  rw [site.gaps, he.split]
  simp

/-- The start gap, the gaps between and the end gap, in order. -/
theorem sorted : (f.gap :: between ++ [e]).Pairwise fun g g' => g.stop < g'.start := by
  have hs := site.inv.ordered.sorted
  rw [he.gaps_eq site] at hs
  exact (pairwise_append.mp (pairwise_append.mp hs).1).2.1

theorem nonempty : ∀ g ∈ f.gap :: between ++ [e], g.start < g.stop := by
  intro g hg
  refine site.inv.ordered.nonempty g ?_
  rw [he.gaps_eq site]
  exact mem_append_left _ (mem_append_right _ hg)

theorem mem : e ∈ s.gaps := by
  rw [he.gaps_eq site]
  simp

theorem lt : e.start < e.stop := he.nonempty site e (by simp)

theorem gap_lt : f.gap.stop < e.start := by
  have hs := he.sorted site
  rw [cons_append] at hs
  exact (pairwise_cons.mp hs).1 e (by simp)

theorem between_bounds : ∀ g ∈ between, f.gap.stop < g.start ∧ g.stop < e.start := by
  intro g hg
  have hs := he.sorted site
  rw [cons_append] at hs
  obtain ⟨h₁, h₂⟩ := pairwise_cons.mp hs
  exact ⟨h₁ g (by simp [hg]), (pairwise_append.mp h₂).2.2 g hg e mem_cons_self⟩

theorem not_inGaps (hx : f.gap.stop ≤ x) (hxe : x < e.start ∨ e.stop ≤ x)
    (hxs : start ≤ x) (hlt : x ≤ stop)
    (hb : ¬ InGaps between x) : ¬ InGaps s.gaps x := by
  rw [he.gaps_eq site]
  simp only [inGaps_append, inGaps_cons, inGaps_nil, or_false]
  rintro ((hin | (hin | hin) | hin) | hin)
  · refine not_inGaps_of_stop_le (fun g hg => ?_) hin
    have := site.before g hg
    omega
  · omega
  · exact hb hin
  · omega
  · refine not_inGaps_of_lt_start (fun g hg => ?_) hin
    have := he.after g hg
    omega

theorem spans (p : Piece) (h₁ : start ≤ p.start) (h₂ : p.stop ≤ stop) (h₃ : p.start ≤ f.gap.stop)
    (h₄ : e.start ≤ p.stop)
    (h₅ : e.stop ≤ stop → p.stop ≤ e.stop) :
    Stretch s p f.before (f.gap :: between ++ [e]) after f.gap.start e.stop := by
  have hgap := site.gap_lt
  have hlt := he.lt site
  have hge := he.gap_lt site
  refine ⟨he.gaps_eq site, fun g hg => ?_, fun g hg => ?_, site.inv.ordered.bound _ (he.mem site),
    fun g hg => ?_, fun x hx => ?_, by omega, by omega, by omega⟩
  · have := site.before g hg
    exact ⟨site.before_lt g hg, by omega⟩
  · have hs := site.inv.ordered.sorted
    rw [he.gaps_eq site] at hs
    have := (pairwise_append.mp hs).2.2 e (by simp) g hg
    have := he.after g hg
    exact ⟨by omega, by omega⟩
  · simp only [cons_append, mem_cons, mem_append, not_mem_nil, or_false] at hg
    rcases hg with rfl | hg | rfl
    · omega
    · have := he.between_bounds site g hg
      omega
    · exact le_rfl
  · simp only [cons_append, inGaps_cons, inGaps_append, inGaps_nil, or_false]
    constructor
    · rintro (hin | ⟨g, hg, hin⟩ | hin)
      · omega
      · have := he.between_bounds site g hg
        have := he.nonempty site g (by simp [hg])
        omega
      · omega
    · intro hin
      by_cases hxg : x < f.gap.stop
      · exact .inl ⟨hin.1, hxg⟩
      · exact .inr (.inr ⟨by omega, hin.2⟩)

end EndSite

theorem gapsLater_carve {p' : Piece} (hstart : p'.start = p.start)
    (hstop : p'.stop ≤ e.stop) (hcover : f.gap.stop ≤ p.stop)
    (hside : p.start ≤ f.gap.start ∨ hasReplaced = false ∨ p.start = f.gap.stop) :
    gapsLater p' f (adjustStartGap p f.gap hasReplaced) [] e after =
      f.before ++ carve f.gap.start e.stop p'.start p'.stop ++ after := by
  have hlast : (if p'.stop = e.stop then ([] : List ByteInterval) else [⟨p'.stop, e.stop⟩]) =
      if e.stop ≤ p'.stop then [] else [⟨p'.stop, e.stop⟩] := by
    by_cases heq : p'.stop = e.stop
    · rw [if_pos heq, if_pos (by omega)]
    · rw [if_neg heq, if_neg (by omega)]
  have hfirst : (adjustStartGap p f.gap hasReplaced).1 =
      if p.start ≤ f.gap.start then [] else [⟨f.gap.start, p.start⟩] := by
    by_cases hle : p.start ≤ f.gap.start
    · simp [adjustStartGap, hle, hcover]
    · cases hasReplaced with
      | false => simp [adjustStartGap, hle]
      | true =>
        have heq : p.start = f.gap.stop := by simpa [hle] using hside
        rw [adjustStartGap, if_neg hle, if_neg hle, if_pos rfl, heq]
  rw [gapsLater, carve, hlast, hfirst, hstart, append_nil]

section Later

variable (site : Site s f start stop) (he : EndSite f stop between e after)
  (cb : Option Nat)

include site he

/-- The common end of both cases: the entries up to the end gap are dropped, the
piece is cut there. -/
theorem fill_later {s₂ : FrameSorter}
    (hof : p.Of d start) (hstop : p.stop = stop)
    (hrest : ∀ x, start ≤ x → x < p.start → ¬ InGaps s.gaps x)
    (hread : s.readPos ≤ p.start) (hle : p.start ≤ f.gap.stop)
    (hside : p.start ≤ f.gap.start ∨ hasReplaced = false ∨ p.start = f.gap.stop)
    (hgaps : deleteGaps e between (s'.deleteConsecutive f.gap.stop) = .ok ([], s₂))
    (hdrops : Drops s p.start e.start s₂) :
    (s'.fill p cb f hasReplaced (decide (stop < e.stop)) (.later between e after)).Meets
      (Enqueued d s start stop cb) (· = Failure.tooManyGaps) := by
  have hge := he.gap_lt site
  have hel := he.lt site
  have hes := he.le
  have hfront := hof.le
  obtain ⟨p', hok, hs', hstop', hof'⟩ := cutToEndGap_ok hof (show p.start < e.stop by omega)
  rw [hstop] at hok
  refine Meets.bind ?_ fun _ h => h
  rw [hgaps, meets_ok]
  refine Meets.bind ?_ fun _ h => h
  rw [hok, meets_ok, gapsLater_carve hs' (by omega) (by omega) hside]
  have hstretch := he.spans site p' (by omega) (by omega) (by omega) (by omega) (fun _ => by omega)
  refine (hstretch.placed site hof' (by omega) (by omega) (hdrops.congr fun x hx => ?_)
    fun x hx hxs hout => ?_).enqueue cb
  · have hnot : ¬ (e.start ≤ x ∧ x < e.stop) :=
      fun hin => site.inv.not_covers ⟨e, he.mem site, hin.1, hin.2⟩ hx
    omega
  · rcases Nat.lt_or_ge x p.start with hlt | hxp
    · exact hrest x hx hlt
    · refine he.not_inGaps site (by omega) (.inr (by omega)) hx (by omega) ?_
      refine not_inGaps_of_stop_le fun g hg => ?_
      have := he.between_bounds site g hg
      omega

theorem fill_later_inside (hi : Inside d s f start stop s' p hasReplaced) :
    (s'.fill p cb f hasReplaced (decide (stop < e.stop)) (.later between e after)).Meets
      (Enqueued d s start stop cb) (· = Failure.tooManyGaps) := by
  have hgap := site.gap_lt
  have hge := he.gap_lt site
  have hes := he.le
  have hlt := hi.lt
  have hside := hi.front
  have hread := site.inv.read _ site.gap_mem
  obtain ⟨hfront, hstart⟩ := hi.start_lt site
  have hsub : ∀ x, Covers (blocks s') x → Covers (blocks s) x :=
    fun x hx => ((hi.drops.covers x).mp hx).1
  obtain ⟨s₂, hgaps, hdrops⟩ := deleteGaps_spec (he.lt site) (hi.drops.tiling site.inv.tiling)
    (fun g hg => he.nonempty site g (mem_append_left _ hg)) (he.sorted site)
    (fun x hx hc => site.inv.not_covers (by
      rw [he.gaps_eq site, inGaps_append, inGaps_append]
      exact .inl (.inr hx)) (hsub x hc))
    (by
      intro x y hy hyx hxe hclean _
      refine (hi.drops.covers y).mpr ⟨?_, by omega⟩
      exact site.covers (by omega) (by omega)
        (he.not_inGaps site hy (.inl (by omega)) (by omega) (by omega)
          (hclean y le_rfl hyx)))
  refine fill_later site he cb hi.of hi.stop_eq ?_ hi.read (by omega)
    (hi.side.imp_right Or.inl) hgaps ?_
  · intro x hx hxp
    exact site.not_inGaps hx (by omega)
  · refine hi.drops.trans hdrops fun x hx => ?_
    have hnot : ¬ (f.gap.start ≤ x ∧ x < f.gap.stop) :=
      fun hin => site.inv.not_covers (site.in_gap hin.1 hin.2) hx
    omega

theorem fill_later_atEnd (ha : AtEnd d s f start stop s' p b) :
    (s'.fill p cb f true (decide (stop < e.stop)) (.later between e after)).Meets
      (Enqueued d s start stop cb) (· = Failure.tooManyGaps) := by
  have hgap := site.gap_lt
  have hge := he.gap_lt site
  have hel := he.lt site
  have hes := he.le
  have hstart := ha.start_eq
  have hfront := ha.front
  have hsb := ha.lt
  have hread := site.inv.read _ site.gap_mem
  have hecov : ¬ Covers (blocks s) e.start :=
    site.inv.not_covers ⟨e, he.mem site, le_rfl, hel⟩
  -- The frame reaches into the end gap, so it was not cut at an entry.
  obtain ⟨hstop, hb⟩ : p.stop = stop ∧ ¬ Covers (blocks s) b := by
    rcases ha.back with ⟨-, hall⟩ | hback
    · exact absurd (hall e.start (by omega) hes) hecov
    · exact hback
  have hbe : b ≤ e.start := ha.cuts.cut.le_of_not_covers (by omega) hecov
  have hcovers : ∀ y, f.gap.stop ≤ y → y < e.start → ¬ InGaps between y → Covers (blocks s) y := by
    intro y hy hye hclean
    exact site.covers (by omega) (by omega)
      (he.not_inGaps site hy (.inl hye) (by omega) (by omega) hclean)
  obtain ⟨s₂, hgaps, hdrops⟩ := deleteGaps_spec hel (ha.cuts.tiling site.inv.tiling)
    (fun g hg => he.nonempty site g (mem_append_left _ hg)) (he.sorted site)
    (fun x hx hc => site.inv.not_covers (by
      rw [he.gaps_eq site, inGaps_append, inGaps_append]
      exact .inl (.inr hx)) ((ha.cuts.cut.covers x).mp hc).1)
    (by
      intro x y hy hyx hxe hclean hx
      obtain ⟨-, hout⟩ := (ha.cuts.cut.covers x).mp hx
      refine (ha.cuts.cut.covers y).mpr
        ⟨hcovers y hy (by omega) (hclean y le_rfl hyx), fun hin => ?_⟩
      exact hb (hcovers b (by omega) (by omega) (hclean b (by omega) (by omega))))
  refine fill_later site he cb ha.of hstop ?_ (by omega) (by omega)
    (.inr (.inr (by omega))) hgaps ?_
  · intro x hx hxp
    omega
  · refine ha.cuts.drops.trans hdrops fun x hx => ?_
    omega

end Later

/-! ## `Push` -/

/-- What `push` establishes: a duplicate was no news, or the sorter has it now. -/
def Pushed (d : List UInt8) (s : FrameSorter) (start stop : Nat) (cb : Option Nat) :
    Option FrameSorter → Prop
  | none => ∀ x, start ≤ x → x < stop → Received s x
  | some s' => Enqueued d s start stop cb s'

theorem pushAt_meets (site : Site s f start stop) (hof : Piece.Of d start ⟨d, start, stop, false⟩)
    {endGap : EndGap} {endsInGap : Bool}
    (hend : (endGap = .same ∧ endsInGap = decide (stop < f.gap.stop) ∧
        ∀ g ∈ f.after, stop < g.start) ∨
      ∃ between e after, endGap = .later between e after ∧ endsInGap = decide (stop < e.stop) ∧
        EndSite f stop between e after) (cb : Option Nat) :
    (s.pushAt ⟨d, start, stop, false⟩ cb f endGap endsInGap).Meets (Pushed d s start stop cb)
      (· = Failure.tooManyGaps) := by
  simp only [pushAt]
  rcases opening site hof with ⟨hloop, hdup⟩ | ⟨s', hasReplaced, cutAt, p, hloop, hcut, hopen⟩
  · rw [hloop]
    exact fun x hx hxs => ((site.inv.covers x).mp (hdup x hx hxs)).2
  · rw [hloop]
    refine Meets.bind ?_ fun _ h => h
    rw [hcut, meets_ok]
    refine Meets.map ?_ fun _ h => h
    rcases hend with ⟨rfl, rfl, hafter⟩ | ⟨between, e, after, rfl, rfl, he⟩
    · rcases hopen with hi | ⟨rfl, b, ha⟩
      · exact fill_same_inside site hafter cb hi
      · exact fill_same_atEnd site hafter cb ha
    · rcases hopen with hi | ⟨rfl, b, ha⟩
      · exact fill_later_inside site he cb hi
      · exact fill_later_atEnd site he cb ha

section

variable (inv : Shape s)

include inv

theorem Shape.done (done : List Nat) : Shape { s with done := done } :=
  { inv with }

theorem Shape.duplicate (hdup : ∀ x, start ≤ x → x < stop → Received s x) (cb : Option Nat) :
    Grows d start stop s { s with done := s.done ++ cb.toList } := by
  refine ⟨inv.done _, rfl, fun x => ?_, fun k e he => .inl he⟩
  exact ⟨.inl, fun hx => hx.elim id fun hx => hdup x hx.1 hx.2⟩

/-- A frame that ends before the gap that `findStartGap` found lies between gaps. -/
theorem isDuplicate_prev (hgaps : s.gaps = f.before ++ f.gap :: f.after)
    (hfront : ∀ g ∈ s.gaps.head?, g.start < stop) (hlt : stop < f.gap.start) :
    isDuplicate stop f .prev = .ok true := by
  have hgap := inv.ordered.nonempty f.gap (by simp [hgaps])
  cases hlast : f.before.getLast? with
  | none =>
    have hnil : f.before = [] := List.getLast?_eq_none_iff.mp hlast
    have := hfront f.gap (by simp [hgaps, hnil])
    omega
  | some g =>
    have hg : g ∈ f.before := mem_of_mem_getLast? hlast
    have hs := inv.ordered.sorted
    rw [hgaps] at hs
    have := (pairwise_append.mp hs).2.2 g hg f.gap mem_cons_self
    have := inv.ordered.nonempty g (by simp [hgaps, hg])
    simp only [isDuplicate, hlast]
    rw [if_pos ⟨by omega, by omega⟩]

/-- `push` from the start gap on. -/
theorem pushFound_meets {gap : ByteInterval}
    (hof : Piece.Of d start ⟨d, start, stop, false⟩) (hlt : start < stop)
    (hmax : stop < maxByteCount)
    (hsplit : s.gaps = before ++ gap :: after) (hbefore : ∀ g ∈ before, g.stop < start)
    (hle : start ≤ gap.stop) (hfront : ∀ g ∈ s.gaps.head?, g.start < stop) (cb : Option Nat) :
    ((findEndGap stop gap after).bind fun r =>
      (isDuplicate stop ⟨[] ++ before, gap, after, decide (gap.start ≤ start)⟩ r.1).bind fun dup =>
        if dup then .ok none else s.pushAt ⟨d, start, stop, false⟩ cb
          ⟨[] ++ before, gap, after, decide (gap.start ≤ start)⟩ r.1 r.2).Meets
      (Pushed d s start stop cb) (· = Failure.tooManyGaps) := by
  have hdup : stop ≤ gap.start → Pushed d s start stop cb none := fun hstop x hx hxs =>
    ⟨hxs.trans hmax, inv.ordered.not_inGaps hsplit hbefore hx (by omega)⟩
  refine Meets.bind ?_ fun _ h => h
  rw [nil_append]
  rcases Nat.lt_or_ge stop gap.start with hlt | hge
  · rw [findEndGap, if_neg (by omega), if_pos hlt, meets_ok]
    refine Meets.bind ?_ fun _ h => h
    rw [isDuplicate_prev inv hsplit hfront hlt]
    exact hdup hlt.le
  · have hsite : gap.start < stop →
        Site s ⟨before, gap, after, decide (gap.start ≤ start)⟩ start stop := fun hreach =>
      ⟨inv, hsplit, hbefore, hle, rfl, hreach, hlt, hmax⟩
    have hne : ∀ g ∈ after, g.start < g.stop :=
      fun g hg => inv.ordered.nonempty g (by simp [hsplit, hg])
    have hsorted := inv.ordered.sorted
    rw [hsplit] at hsorted
    have htop : ∃ g ∈ gap :: after, stop < g.stop := by
      obtain ⟨g, hg, htop⟩ := inv.ordered.top
      rw [hsplit] at hg
      rcases mem_append.mp hg with hg | hg
      · have := hbefore g hg
        omega
      · exact ⟨g, hg, by omega⟩
    rcases findEndGap_ok hne (pairwise_append.mp hsorted).2.1 htop hge with
      ⟨hend, hafter⟩ | ⟨between, e, after', hend, hsplit', hes, hafter⟩
    · rw [hend, meets_ok]
      refine Meets.bind ?_ fun _ h => h
      simp only [isDuplicate, meets_ok, decide_eq_true_eq]
      split_ifs with hstop
      · exact hdup hstop
      · exact pushAt_meets (hsite (by omega)) hof (.inl ⟨rfl, rfl, hafter⟩) cb
    · have hge' : gap.stop < e.start :=
        (pairwise_cons.mp (pairwise_append.mp hsorted).2.1).1 e (by simp [hsplit'])
      have hgap := inv.ordered.nonempty gap (by simp [hsplit])
      rw [hend, meets_ok]
      refine Meets.bind ?_ fun _ h => h
      simp only [isDuplicate, meets_ok, decide_eq_true_eq]
      rw [if_neg (by omega)]
      exact pushAt_meets (hsite (by omega)) hof
        (.inr ⟨between, e, after', rfl, rfl, ⟨hsplit', hes, hafter⟩⟩) cb

theorem pushData_meets (hmax : start + d.length < maxByteCount) (cb : Option Nat) :
    (s.pushData d start cb).Meets (Pushed d s start (start + d.length) cb)
      (· = Failure.tooManyGaps) := by
  cases d with
  | nil => exact fun x hx hxs => absurd hxs (Nat.not_lt.mpr hx)
  | cons byte bytes =>
    obtain ⟨gtop, hgtop, htop⟩ := inv.ordered.top
    cases hgaps : s.gaps with
    | nil => simp [hgaps] at hgtop
    | cons front others =>
      simp only [pushData, hgaps]
      split
      · rename_i hle
        intro x hx hxs
        exact ⟨hxs.trans hmax, inv.ordered.not_inGaps
          (show s.gaps = [] ++ front :: others from hgaps) (by simp) (Nat.zero_le x)
          (hxs.trans_le hle)⟩
      · rename_i hfront
        have htop' : ∃ g ∈ s.gaps, start ≤ g.stop := ⟨gtop, hgtop, by omega⟩
        obtain ⟨before, gap, after, hstart, hsplit, hbefore, hle⟩ :=
          findStartGap_ok [] inv.ordered.nonempty htop'
        rw [← hgaps]
        refine Meets.bind ?_ fun _ h => h
        rw [hstart, meets_ok]
        have hfront' : ∀ g ∈ s.gaps.head?, g.start < start + (byte :: bytes).length := by
          simp only [hgaps, List.head?_cons, Option.mem_some_iff, forall_eq']
          omega
        exact pushFound_meets inv Piece.of_frame (by simp) hmax hsplit hbefore hle
          hfront' cb

/-- A frame that reaches up to the largest offset makes `findEndGap` panic. -/
theorem pushData_ok {cb : Option Nat} {r : Option FrameSorter} (h : s.pushData d start cb = .ok r) :
    Pushed d s start (start + d.length) cb r := by
  by_cases hmax : start + d.length < maxByteCount
  · exact (pushData_meets inv hmax cb).of_eq_ok h
  · cases d with
    | nil =>
      cases h
      exact fun x hx hxs => absurd hxs (Nat.not_lt.mpr hx)
    | cons byte bytes =>
      cases hgaps : s.gaps with
      | nil =>
        simp only [pushData, hgaps] at h
        cases h
      | cons front others =>
        have hfront : front ∈ s.gaps := by simp [hgaps]
        have hlt := inv.ordered.nonempty front hfront
        have hle := inv.ordered.bound front hfront
        simp only [pushData, hgaps] at h
        rw [if_neg (by omega), ← hgaps] at h
        obtain ⟨f, hf, h⟩ := bind_eq_ok_iff.mp h
        obtain ⟨endGap, hend, -⟩ := bind_eq_ok_iff.mp h
        have hall : ∀ g ∈ f.gap :: f.after,
            g.start < g.stop ∧ g.stop ≤ start + (byte :: bytes).length := fun g hg => by
          have hg := findStartGap_mem hf g hg
          have := inv.ordered.bound g hg
          exact ⟨inv.ordered.nonempty g hg, by omega⟩
        have hgap := hall f.gap mem_cons_self
        rw [findEndGap, if_neg (by omega), if_neg (by omega), findEndGapLoop_error []
          fun g hg => hall g (mem_cons_of_mem _ hg)] at hend
        cases hend

theorem push_meets (hmax : start + d.length < maxByteCount) (cb : Option Nat) :
    (s.push d start cb).Meets (Grows d start (start + d.length) s) (· = Failure.tooManyGaps) := by
  refine (pushData_meets inv hmax cb).map fun r hr => ?_
  cases r with
  | none => exact inv.duplicate hr cb
  | some s' => exact hr.grows inv

theorem push_ok {cb : Option Nat} (h : s.push d start cb = .ok s') :
    Grows d start (start + d.length) s s' := by
  obtain ⟨r, hr, heq⟩ := map_eq_ok_iff.mp h
  cases r with
  | none =>
    cases heq
    exact inv.duplicate (pushData_ok inv hr) cb
  | some s' =>
    cases heq
    exact (pushData_ok inv hr).grows inv

/-! ## `Pop` -/

/-- Nothing is queued before the read position. -/
theorem Shape.clear_readPos : Clear (blocks s) s.readPos := by
  intro k n hk hlt
  have hcovers := Blocks.covers_of_block hk le_rfl
    (Nat.lt_add_of_pos_right (inv.tiling.pos hk))
  have := ((inv.covers k).mp hcovers).1
  omega

/-- The byte at the read position is missing from the queue if it was not
pushed. -/
theorem Shape.lookup_readPos : s.queue.lookup s.readPos = none ↔ ¬ Received s s.readPos := by
  constructor
  · intro h hp
    exact not_covers_of_lookup inv.clear_readPos h
      ((inv.covers _).mpr ⟨le_rfl, hp.1, hp.2⟩)
  · intro hp
    cases h : s.queue.lookup s.readPos with
    | none => rfl
    | some e =>
      have hcovers := Blocks.covers_of_block (blocks_of_lookup h) le_rfl
        (Nat.lt_add_of_pos_right (inv.tiling.pos (blocks_of_lookup h)))
      exact absurd ((inv.covers _).mp hcovers).2 hp

/-- What was read was pushed. -/
theorem Shape.received_of_lt (hx : x < s.readPos) : Received s x := by
  obtain ⟨g, hg, htop⟩ := inv.ordered.top
  have hne := inv.ordered.nonempty g hg
  have hread := inv.read g hg
  refine ⟨by omega, not_inGaps_of_lt_start fun g hg => ?_⟩
  exact hx.trans_le (inv.read g hg)

/-- The sorter after a piece was handed out. -/
def handOut (s : FrameSorter) (e : FrameSorterEntry) : FrameSorter :=
  { s with queue := s.queue.erase s.readPos, readPos := s.readPos + e.data.length }

theorem pop_some {entry : FrameSorterEntry} (h : s.queue.lookup s.readPos = some entry) :
    s.pop = .ok (s.handOut entry, ⟨s.readPos, some entry.data, entry.doneCb⟩) ∧
    Shape (s.handOut entry) := by
  have hcut : CutOut (blocks s) s.readPos (s.readPos + entry.data.length)
      (blocks (s.handOut entry)) :=
    deleteEntry_cut inv.tiling h
  -- No gap starts within what is handed out.
  have hread : ∀ g ∈ s.gaps, s.readPos + entry.data.length ≤ g.start := fun g hg =>
    hcut.le_of_not_covers (inv.read g hg) (inv.not_covers (inv.ordered.inGaps_start hg))
  refine ⟨?_, inv.ordered, hread, inv.tiling.sub hcut.sub, fun x => ?_⟩
  · cases hgaps : s.gaps with
    | nil =>
      obtain ⟨g, hg, -⟩ := inv.ordered.top
      simp [hgaps] at hg
    | cons front others =>
      have hfront : front ∈ s.gaps := by simp [hgaps]
      have h₁ := hread front hfront
      have h₂ := inv.ordered.nonempty front hfront
      simp only [pop, h, hgaps, handOut]
      rw [if_neg (by omega)]
  · rw [hcut.covers, inv.covers]
    show _ ↔ s.readPos + entry.data.length ≤ x ∧ _
    constructor
    · rintro ⟨⟨h₁, h₂, h₃⟩, hout⟩
      exact ⟨by omega, h₂, h₃⟩
    · rintro ⟨h₁, h₂, h₃⟩
      exact ⟨⟨by omega, h₂, h₃⟩, by omega⟩

theorem pop_ok {popped : Popped} (h : s.pop = .ok (s', popped)) :
    Shape s' ∧ s'.gaps = s.gaps ∧ popped.offset = s.readPos ∧
      s'.readPos = s.readPos + (popped.data.getD []).length := by
  cases hl : s.queue.lookup s.readPos with
  | none =>
    simp only [pop, hl] at h
    cases h
    exact ⟨inv, rfl, rfl, rfl⟩
  | some entry =>
    obtain ⟨hpop, hshape⟩ := pop_some inv hl
    rw [hpop] at h
    cases h
    exact ⟨hshape, rfl, rfl, rfl⟩

end

/-! ## Frames of one stream -/

/-- Gaps are what was not pushed, entries tile what was pushed and not read. -/
structure Inv (S : Nat → UInt8) (pushed : Nat → Prop) (s : FrameSorter) : Prop where
  ordered : Ordered s.gaps
  read : ∀ g ∈ s.gaps, s.readPos ≤ g.start
  tiling : Tiling (blocks s)
  covers : ∀ x, Covers (blocks s) x ↔ s.readPos ≤ x ∧ x < maxByteCount ∧ ¬ InGaps s.gaps x
  data : ∀ k e, s.queue.lookup k = some e → e.data = slice S k e.data.length
  pushed : ∀ x, pushed x ↔ x < maxByteCount ∧ ¬ InGaps s.gaps x

variable {pushed pushed' : Nat → Prop} {cb : Option Nat}

theorem Inv.shape (inv : Inv S pushed s) : Shape s := { inv with }

theorem Shape.inv (h : Shape s)
    (hdata : ∀ k e, s.queue.lookup k = some e → e.data = slice S k e.data.length)
    (hpushed : ∀ x, pushed x ↔ Received s x) : Inv S pushed s :=
  { h with data := hdata, pushed := hpushed }

theorem inv_new : Inv S (fun _ => False) new :=
  shape_new.inv (fun k e h => by simp [new] at h) fun x => (iff_false_intro not_received_new).symm

/-- The bytes of a frame, added to what was pushed. -/
def Adds (start stop : Nat) (pushed pushed' : Nat → Prop) : Prop :=
  ∀ x, pushed' x ↔ pushed x ∨ (start ≤ x ∧ x < stop)

section

variable (inv : Inv S pushed s)

include inv

theorem Inv.grows (hg : Grows d start stop s s') (hd : d = slice S start d.length)
    (hadds : Adds start stop pushed pushed') : Inv S pushed' s' := by
  refine hg.shape.inv (fun k e he => ?_) fun x => ?_
  · rcases hg.entries k e he with he | ⟨hle, n, hn⟩
    · exact inv.data k e he
    · rw [hd, drop_slice, take_slice, Nat.add_sub_cancel' hle] at hn
      rw [hn, length_slice]
  · rw [hadds, hg.received]
    exact or_congr_left (inv.pushed x)

theorem Inv.congr (heq : ∀ x, pushed' x ↔ pushed x) : Inv S pushed' s :=
  inv.shape.inv inv.data fun x => (heq x).trans (inv.pushed x)

/-- What `Pop` does: it hands out the piece at the read position, or it has none. -/
theorem pop_cases : (s.pop = .ok (s, ⟨s.readPos, none, none⟩) ∧ ¬ pushed s.readPos) ∨
    ∃ s' data cb, s.pop = .ok (s', ⟨s.readPos, some data, cb⟩) ∧ pushed s.readPos ∧ data ≠ [] ∧
      data = slice S s.readPos data.length ∧ s'.readPos = s.readPos + data.length ∧
      s'.queue.keys.length + 1 = s.queue.keys.length ∧ Inv S pushed s' := by
  cases hl : s.queue.lookup s.readPos with
  | none =>
    refine .inl ⟨by simp only [pop, hl], ?_⟩
    rw [inv.pushed]
    exact inv.shape.lookup_readPos.mp hl
  | some e =>
    obtain ⟨hpop, hshape⟩ := pop_some inv.shape hl
    refine .inr ⟨s.handOut e, e.data, e.doneCb, hpop, ?_, ?_, inv.data _ e hl, rfl,
      length_keys_deleteEntry hl,
      hshape.inv (fun k e' he => inv.data k e' ((deleteEntry_loses hl).sub k e' he)) inv.pushed⟩
    · rw [inv.pushed]
      by_contra hp
      rw [inv.shape.lookup_readPos.mpr hp] at hl
      cases hl
    · exact ne_nil_of_length_pos (inv.tiling.pos (blocks_of_lookup hl))

end

/-! ## Every run -/

/-- A sorter and what has been read from it. -/
structure Reader where
  sorter : FrameSorter
  read : List UInt8

/-- A call to the sorter. -/
inductive Call
  | push (data : List UInt8) (offset : Nat) (doneCb : Option Nat)
  | pop
  deriving DecidableEq, Repr

namespace Reader

/-- One call, with the data that `Pop` returns appended to what was read. -/
def call (r : Reader) : Call → Except Failure Reader
  | .push data offset doneCb => (r.sorter.push data offset doneCb).map fun s =>
  { r with sorter := s }
  | .pop => r.sorter.pop.map fun (s, popped) => ⟨s, r.read ++ popped.data.getD []⟩

def step (r : Reader) (c : Call) : Option Reader := (r.call c).toOption

def init : Reader := ⟨new, []⟩

def machine : Machine Reader Call := .ofStep init step

/-- The frame carries a part of the stream `S`. -/
def FromStream (S : Nat → UInt8) (_ : Reader) : Call → Prop
  | .push data offset _ =>
    data = slice S offset data.length ∧ offset + data.length < maxByteCount
  | .pop => True

instance (S : Nat → UInt8) (r : Reader) : (c : Call) → Decidable (FromStream S r c)
  | .push data offset _ => inferInstanceAs
      (Decidable (data = slice S offset data.length ∧ offset + data.length < maxByteCount))
  | .pop => .isTrue trivial

def PushedIn (tr : List Call) (x : Nat) : Prop :=
  ∃ data offset doneCb, Call.push data offset doneCb ∈ tr ∧ offset ≤ x ∧ x < offset + data.length

/-- The invariant of a run. -/
structure RunInv (S : Nat → UInt8) (tr : List Call) (r : Reader) : Prop where
  inv : Inv S (PushedIn tr) r.sorter
  read : r.read = slice S 0 r.sorter.readPos

variable {r r' : Reader} {tr tr' : List Call} {c : Call}

theorem adds_push (tr : List Call) (data : List UInt8) (offset : Nat) (cb : Option Nat) :
    Adds offset (offset + data.length) (PushedIn tr) (PushedIn (tr ++ [.push data offset cb])) := by
  intro x
  constructor
  · rintro ⟨d, o, cb', hmem, hx⟩
    rcases mem_append.mp hmem with hmem | hmem
    · exact .inl ⟨d, o, cb', hmem, hx⟩
    · cases mem_singleton.mp hmem
      exact .inr hx
  · rintro (⟨d, o, cb', hmem, hx⟩ | hx)
    · exact ⟨d, o, cb', mem_append_left _ hmem, hx⟩
    · exact ⟨data, offset, cb, by simp, hx⟩

theorem pushedIn_pop (tr : List Call) (x : Nat) : PushedIn (tr ++ [.pop]) x ↔ PushedIn tr x := by
  simp [PushedIn]

/-- **One call.**  It keeps the invariant, and the only error is too many gaps. -/
theorem call_meets (h : RunInv S tr r) (hc : FromStream S r c) :
    (r.call c).Meets (RunInv S (tr ++ [c])) (· = Failure.tooManyGaps) := by
  cases c with
  | push data offset cb =>
    obtain ⟨hdata, hmax⟩ := hc
    refine (push_meets h.inv.shape hmax cb).map fun s' hs' =>
      ⟨h.inv.grows hs' hdata (adds_push tr data offset cb), ?_⟩
    show r.read = slice S 0 s'.readPos
    rw [hs'.readPos]
    exact h.read
  | pop =>
    rcases pop_cases h.inv with ⟨hpop, -⟩ | ⟨s', data, cb, hpop, -, -, hdata, hread, -, hinv⟩
    · rw [call, hpop]
      refine ⟨h.inv.congr (pushedIn_pop tr), ?_⟩
      simpa using h.read
    · rw [call, hpop]
      refine ⟨hinv.congr (pushedIn_pop tr), ?_⟩
      show r.read ++ data = slice S 0 s'.readPos
      rw [h.read, hdata, hread, ← slice_append, Nat.zero_add]

theorem run_inv (hrun : (machine.guard (FromStream S)).Run tr r) : RunInv S tr r := by
  refine Machine.Run.invariant (I := RunInv S) ?_ ?_ hrun
  · rintro r rfl
    refine ⟨inv_new.congr fun x => ?_, rfl⟩
    simp [PushedIn]
  · rintro tr r c r' - h ⟨hc, hstep⟩
    exact (call_meets h hc).of_eq_ok (toOption_eq_some_iff.mp hstep)

/-- **The sorter reassembles the stream.**  After any calls without an error, with
frames of the stream `S`: what was read is the start of `S`; the next `Pop` returns
the bytes of `S` at the read position and moves it past them, and returns no data
exactly if the byte there was not pushed; and no call panics. -/
theorem reassembles (hrun : (machine.guard (FromStream S)).Run tr r) :
    r.read = slice S 0 r.sorter.readPos ∧
    (∃ s' popped, r.sorter.pop = .ok (s', popped) ∧ popped.offset = r.sorter.readPos ∧
      (∀ data, popped.data = some data → data ≠ [] ∧ data = slice S r.sorter.readPos data.length ∧
        s'.readPos = r.sorter.readPos + data.length) ∧ (popped.data = none → s' = r.sorter) ∧
      (popped.data = none ↔ ¬ PushedIn tr r.sorter.readPos)) ∧
    ∀ c e, FromStream S r c → r.call c = .error e → e = .tooManyGaps := by
  have h := run_inv hrun
  refine ⟨h.read, ?_, fun c e hc herr => (call_meets h hc).of_eq_error herr⟩
  rcases pop_cases h.inv with ⟨hpop, hnot⟩ | ⟨s', data, cb, hpop, hp, hne, hdata, hread, -⟩
  · exact ⟨_, _, hpop, rfl, (fun _ hd => nomatch hd), fun _ => rfl, fun _ => hnot, fun _ => rfl⟩
  · refine ⟨_, _, hpop, rfl, ?_, (fun hd => nomatch hd), (fun hd => nomatch hd),
      fun hnot => absurd hp hnot⟩
    rintro _ ⟨⟩
    exact ⟨hne, hdata, hread⟩

/-- Three overlapping frames, out of order, and a read in between. -/
def threeFrames : List Call :=
  [.push [3, 4, 5] 3 none, .push [0, 1] 0 (some 7), .pop, .push [1, 2, 3, 4] 1 none]

theorem reassembles_threeFrames :
    let S : Nat → UInt8 := fun i => i.toUInt8
    let r := (threeFrames.foldlM step init).getD init
    (machine.guard (FromStream S)).Run threeFrames r ∧ r.sorter.readPos = 2 ∧ r.read = [0, 1] := by
  intro S r
  have hrun : (machine.guard (FromStream S)).Run threeFrames r := by
    rw [machine, Machine.run_guard_iff]
    rfl
  have hpos : r.sorter.readPos = 2 := by decide +kernel
  refine ⟨hrun, hpos, ?_⟩
  rw [(reassembles hrun).1, hpos]
  decide

/-- Where `Pop` has nothing, no reader that was given the same bytes has gone further. -/
theorem RunInv.readPos_le (h : RunInv S tr r) (h' : RunInv S tr' r')
    (hsame : ∀ x, PushedIn tr x ↔ PushedIn tr' x)
    (hend : r'.sorter.pop.map (·.2.data) = .ok none) : r.sorter.readPos ≤ r'.sorter.readPos := by
  obtain ⟨g, hg, htop⟩ := h'.inv.ordered.top
  have hlt := ((h'.inv.read g hg).trans_lt (h'.inv.ordered.nonempty g hg)).trans_eq htop
  rcases pop_cases h'.inv with ⟨-, hnot⟩ | ⟨s', data, cb, hpop, -⟩
  · -- the byte there is missing to both
    rw [← hsame, h.inv.pushed, not_and_not_right] at hnot
    obtain ⟨g, hg, hle, -⟩ := hnot hlt
    exact (h.inv.read g hg).trans hle
  · rw [hpop] at hend
    cases hend

/-- **The order does not matter.**  Two sorters that were given the same bytes, cut and repeated in
any way and in any order, have handed out the same once `Pop` has nothing more. -/
theorem read_confluent (hrun : (machine.guard (FromStream S)).Run tr r)
    (hrun' : (machine.guard (FromStream S)).Run tr' r')
    (hsame : ∀ x, PushedIn tr x ↔ PushedIn tr' x)
    (hend : r.sorter.pop.map (·.2.data) = .ok none)
    (hend' : r'.sorter.pop.map (·.2.data) = .ok none) : r.read = r'.read := by
  have h := run_inv hrun
  have h' := run_inv hrun'
  have hle := h.readPos_le h' hsame hend'
  have hge := h'.readPos_le h (fun x => (hsame x).symm) hend
  rw [h.read, h'.read, le_antisymm hle hge]

theorem pushedIn_nil {x : Nat} : ¬ PushedIn [] x := by
  rintro ⟨data, offset, doneCb, hmem, -⟩
  exact absurd hmem not_mem_nil

theorem pushedIn_cons_push {x offset : Nat} {data : List UInt8} :
    PushedIn (.push data offset cb :: tr) x ↔
      (offset ≤ x ∧ x < offset + data.length) ∨ PushedIn tr x := by
  constructor
  · rintro ⟨data', offset', cb', hmem, hx⟩
    rcases mem_cons.mp hmem with heq | hmem
    · cases heq
      exact .inl hx
    · exact .inr ⟨data', offset', cb', hmem, hx⟩
  · rintro (hx | ⟨data', offset', cb', hmem, hx⟩)
    · exact ⟨data, offset, cb, mem_cons_self, hx⟩
    · exact ⟨data', offset', cb', mem_cons_of_mem _ hmem, hx⟩

theorem pushedIn_cons_pop {x : Nat} : PushedIn (.pop :: tr) x ↔ PushedIn tr x := by
  simp only [PushedIn, mem_cons, reduceCtorEq, false_or]

/-- The frames from last to first, each read as far as it goes, -/
def lastFirst : List Call := threeFrames ++ [.pop, .pop, .pop]

/-- and the bytes of the same frames in another order, with other borders. -/
def middleFirst : List Call :=
  [.push [1, 2, 3, 4] 1 none, .push [4, 5] 4 none, .push [0, 1, 2] 0 none, .pop, .pop, .pop]

theorem read_confluent_overlapping :
    let S : Nat → UInt8 := fun i => i.toUInt8
    ∃ r r', (machine.guard (FromStream S)).Run lastFirst r ∧
      (machine.guard (FromStream S)).Run middleFirst r' ∧ r.read = [0, 1, 2, 3, 4, 5] ∧
      r.read = r'.read := by
  intro S
  have hrun {tr : List Call} {r : Reader} (h : tr.foldlM (fun r c =>
      if FromStream S r c then step r c else none) init = some r) :
      (machine.guard (FromStream S)).Run tr r := by
    rwa [machine, Machine.run_guard_iff]
  have hsame : ∀ x, PushedIn lastFirst x ↔ PushedIn middleFirst x := by
    intro x
    simp only [lastFirst, threeFrames, middleFirst, cons_append, nil_append, pushedIn_cons_push,
      pushedIn_cons_pop, pushedIn_nil, or_false, length_cons, length_nil]
    omega
  obtain ⟨r, hlast, hend⟩ : ∃ r : Reader, (machine.guard (FromStream S)).Run lastFirst r ∧
      r.read = [0, 1, 2, 3, 4, 5] ∧ r.sorter.pop.map (·.2.data) = .ok none :=
      ⟨_, hrun rfl, rfl, rfl⟩
  obtain ⟨r', hmiddle, hend'⟩ : ∃ r' : Reader, (machine.guard (FromStream S)).Run middleFirst r' ∧
      r'.sorter.pop.map (·.2.data) = .ok none := ⟨_, hrun rfl, rfl⟩
  exact ⟨r, r', hlast, hmiddle, hend.1, read_confluent hlast hmiddle hsame hend.2 hend'⟩

end Reader

end UQuic.FrameSorter
