/-
# `UQuic.Lib.Pieces` — a sequence cut into pieces

A piece is a run of elements and the position it was cut from:

    p.Of w          `p` stands in `w` at its offset
    p.Covers i      position `i` lies in `p`
    Tile ps n       every position below `n` lies in exactly one of `ps`, no other in any

Pieces stay pieces of a sequence that grows at its end; a piece can be taken off the
end, cut in two, and moved, and the positions stay tiled.  Nothing here mentions a program.
-/
import Mathlib

/-- A run of elements and where it starts. -/
structure Piece (α : Type) where
  offset : Nat
  data : List α
  deriving DecidableEq, Repr

namespace Piece

open List

variable {α : Type} {w v rest : List α} {p : Piece α} {ps qs : List (Piece α)} {n k i : Nat}

/-- The piece stands in `w`. -/
def Of (w : List α) (p : Piece α) : Prop :=
  ∃ before after, w = before ++ p.data ++ after ∧ before.length = p.offset

def Covers (p : Piece α) (i : Nat) : Prop := p.offset ≤ i ∧ i < p.offset + p.data.length

instance (p : Piece α) (i : Nat) : Decidable (p.Covers i) := inferInstanceAs (Decidable (_ ∧ _))

/-- How many pieces cover a position. -/
def coverage (ps : List (Piece α)) (i : Nat) : Nat := ps.countP fun p => p.Covers i

/-- The pieces tile the positions below `n`. -/
def Tile (ps : List (Piece α)) (n : Nat) : Prop := ∀ i, coverage ps i = if i < n then 1 else 0

def take (p : Piece α) (k : Nat) : Piece α := ⟨p.offset, p.data.take k⟩

def drop (p : Piece α) (k : Nat) : Piece α := ⟨p.offset + k, p.data.drop k⟩

/-! ## Standing in a sequence -/

theorem of_iff : p.Of w ↔ p.offset + p.data.length ≤ w.length ∧
    p.data = (w.drop p.offset).take p.data.length := by
  constructor
  · rintro ⟨before, after, rfl, hlen⟩
    refine ⟨by simp only [length_append]; omega, ?_⟩
    rw [← hlen, append_assoc, drop_left, take_left]
  · rintro ⟨hle, hdata⟩
    refine ⟨w.take p.offset, (w.drop p.offset).drop p.data.length, ?_, ?_⟩
    · have hrest : p.data ++ (w.drop p.offset).drop p.data.length = w.drop p.offset := by
        conv_lhs => lhs; rw [hdata]
        exact take_append_drop _ _
      rw [append_assoc, hrest, take_append_drop]
    · rw [length_take]
      omega

instance [DecidableEq α] (w : List α) (p : Piece α) : Decidable (p.Of w) :=
  decidable_of_iff _ of_iff.symm

theorem Of.append (h : p.Of w) : p.Of (w ++ v) := by
  obtain ⟨before, after, rfl, hlen⟩ := h
  exact ⟨before, after ++ v, by simp only [append_assoc], hlen⟩

theorem Of.take (h : p.Of w) : (p.take k).Of w := by
  obtain ⟨before, after, rfl, hlen⟩ := h
  refine ⟨before, p.data.drop k ++ after, ?_, hlen⟩
  simp only [Piece.take, append_assoc]
  rw [← append_assoc (p.data.take k), take_append_drop]

theorem Of.drop (h : p.Of w) (hk : k ≤ p.data.length) : (p.drop k).Of w := by
  obtain ⟨before, after, rfl, hlen⟩ := h
  refine ⟨before ++ p.data.take k, after, ?_, ?_⟩
  · simp only [Piece.drop, append_assoc]
    rw [← append_assoc (p.data.take k), take_append_drop]
  · simp only [Piece.drop, length_append, length_take]
    omega

/-- A piece from the start of the rest. -/
theorem of_drop (h : w.drop p.offset = p.data ++ rest) (hle : p.offset ≤ w.length) : p.Of w := by
  refine ⟨w.take p.offset, rest, ?_, by rw [length_take]; omega⟩
  rw [append_assoc, ← h, take_append_drop]

/-! ## Tiling -/

theorem tile_nil : Tile ([] : List (Piece α)) 0 := fun _ => rfl

theorem coverage_cons : coverage (p :: ps) i = coverage ps i + if p.Covers i then 1 else 0 := by
  simp only [coverage, countP_cons, decide_eq_true_eq]

theorem Tile.perm (h : Tile ps n) (hp : ps.Perm qs) : Tile qs n := fun i => by
  rw [coverage, ← hp.countP_eq]
  exact h i

theorem Tile.snoc (h : Tile ps n) (hp : p.offset = n) : Tile (p :: ps) (n + p.data.length) := by
  intro i
  rw [coverage_cons, h i]
  by_cases hi : i < n
  · rw [if_pos hi, if_neg (fun hc => absurd hc.1 (by omega)), if_pos (by omega)]
  · rw [if_neg hi, Nat.zero_add]
    exact if_congr ⟨fun hc => hp ▸ hc.2, fun hlt => ⟨by omega, by omega⟩⟩ rfl rfl

theorem Tile.cut (h : Tile (p :: ps) n) (k : Nat) : Tile (p.take k :: p.drop k :: ps) n := by
  intro i
  have hone : p.Covers i ↔ (p.take k).Covers i ∨ (p.drop k).Covers i := by
    simp only [Covers, take, drop, length_take, length_drop]
    omega
  have hnot : (p.take k).Covers i → ¬ (p.drop k).Covers i := by
    simp only [Covers, take, drop, length_take, length_drop]
    omega
  rw [← h i, coverage_cons, coverage_cons, coverage_cons]
  by_cases hl : (p.take k).Covers i
  · rw [if_neg (hnot hl), if_pos hl, if_pos (hone.mpr (.inl hl)), Nat.add_zero]
  · rw [if_neg hl, Nat.add_zero]
    simp only [hone, hl, false_or]

end Piece
