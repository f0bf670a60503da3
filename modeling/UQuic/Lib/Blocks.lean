/-
# `UQuic.Lib.Blocks` — blocks laid out on a line

A partial map `f : Nat → Option Nat` places a block of length `n` at position `k`
when `f k = some n`.  Three notions are used:

    Tiling f        blocks are nonempty and do not overlap
    Covers f x      some block lies over `x`
    Clear f a       no block lies over both `a - 1` and `a`

Taking blocks out one after the other from a clear position on cuts an interval
out of what is covered (`CutOut`), and cuts compose; putting a block where
nothing is covered adds its interval (`tiling_insert`, `covers_insert`).
-/
import Mathlib

namespace Blocks

variable {f f' f'' : Nat → Option Nat} {a b c k m n x : Nat}

/-- Some block lies over `x`. -/
def Covers (f : Nat → Option Nat) (x : Nat) : Prop := ∃ k n, f k = some n ∧ k ≤ x ∧ x < k + n

/-- Blocks are nonempty and do not overlap. -/
structure Tiling (f : Nat → Option Nat) : Prop where
  pos : ∀ {k n}, f k = some n → 0 < n
  apart : ∀ {k n k' n'}, f k = some n → f k' = some n' → k < k' → k + n ≤ k'

/-- No block lies over `a` and the position before it. -/
def Clear (f : Nat → Option Nat) (a : Nat) : Prop := ∀ k n, f k = some n → k < a → k + n ≤ a

theorem covers_of_block (h : f k = some n) (hle : k ≤ x) (hlt : x < k + n) : Covers f x :=
  ⟨k, n, h, hle, hlt⟩

theorem Tiling.sub (t : Tiling f) (hsub : ∀ k n, f' k = some n → f k = some n) : Tiling f' :=
  ⟨fun h => t.pos (hsub _ _ h), fun h h' => t.apart (hsub _ _ h) (hsub _ _ h')⟩

/-- At a clear position that is covered, a block starts. -/
theorem Clear.block (hc : Clear f a) (hx : Covers f a) : ∃ n, f a = some n := by
  obtain ⟨k, n, h, hle, hlt⟩ := hx
  rcases Nat.lt_or_eq_of_le hle with hlt' | rfl
  · have := hc k n h hlt'
    omega
  · exact ⟨n, h⟩

/-- A position whose predecessor is not covered is clear. -/
theorem clear_of_not_covers (hx : ¬ Covers f a) : Clear f (a + 1) := by
  intro k n h hlt
  rcases Nat.lt_or_ge (a + 1) (k + n) with hcovered | hle
  · exact absurd (covers_of_block h (Nat.le_of_lt_succ hlt) (by omega)) hx
  · exact hle

/-! ## Cutting out -/

/-- `f'` is `f` without the blocks that make up `[a, b)`. -/
structure CutOut (f : Nat → Option Nat) (a b : Nat) (f' : Nat → Option Nat) : Prop where
  le : a ≤ b
  sub : ∀ k n, f' k = some n → f k = some n
  covered : ∀ {x}, a ≤ x → x < b → Covers f x
  covers : ∀ x, Covers f' x ↔ Covers f x ∧ ¬ (a ≤ x ∧ x < b)

theorem cutOut_refl : CutOut f a a f :=
  ⟨Nat.le_refl a, fun _ _ h => h, fun hle hlt => absurd hlt (Nat.not_lt.mpr hle),
    fun x => ⟨fun h => ⟨h, by omega⟩, fun h => h.1⟩⟩

theorem CutOut.trans (h : CutOut f a b f') (h' : CutOut f' b c f'') : CutOut f a c f'' := by
  have hab := h.le
  have hbc := h'.le
  refine ⟨Nat.le_trans hab hbc, fun k n hk => h.sub k n (h'.sub k n hk), ?_, ?_⟩
  · intro x hax hxc
    rcases Nat.lt_or_ge x b with hxb | hbx
    · exact h.covered hax hxb
    · exact ((h.covers x).mp (h'.covered hbx hxc)).1
  · intro x
    rw [h'.covers, h.covers]
    constructor
    · rintro ⟨⟨hx, h₁⟩, h₂⟩
      exact ⟨hx, by omega⟩
    · rintro ⟨hx, h₁⟩
      exact ⟨⟨hx, by omega⟩, by omega⟩

theorem cutOut_erase (t : Tiling f) (h : f a = some n) (hself : f' a = none)
    (hother : ∀ k, k ≠ a → f' k = f k) : CutOut f a (a + n) f' := by
  have hsub : ∀ k m, f' k = some m → f k = some m ∧ k ≠ a := by
    intro k m hk
    have hne : k ≠ a := by
      rintro rfl
      rw [hself] at hk
      cases hk
    exact ⟨(hother k hne).symm.trans hk, hne⟩
  refine ⟨Nat.le_add_right a n, fun k m hk => (hsub k m hk).1,
    fun hle hlt => covers_of_block h hle hlt, fun x => ⟨?_, ?_⟩⟩
  · rintro ⟨k, m, hk, hle, hlt⟩
    obtain ⟨hk, hne⟩ := hsub k m hk
    refine ⟨covers_of_block hk hle hlt, ?_⟩
    rintro ⟨hax, hxa⟩
    rcases Nat.lt_or_gt_of_ne hne with hlt' | hgt
    · have := t.apart hk h hlt'
      omega
    · have := t.apart h hk hgt
      omega
  · rintro ⟨⟨k, m, hk, hle, hlt⟩, hout⟩
    refine covers_of_block ((hother k ?_).trans hk) hle hlt
    rintro rfl
    obtain rfl : m = n := Option.some.inj (hk.symm.trans h)
    exact hout ⟨hle, hlt⟩

/-- A cut stays within what is covered. -/
theorem CutOut.le_of_not_covers (h : CutOut f a b f') (hax : a ≤ x)
    (hx : ¬ Covers f x) : b ≤ x := by
  rcases Nat.lt_or_ge x b with hlt | hge
  · exact absurd (h.covered hax hlt) hx
  · exact hge

/-! ## Putting in -/

section Insert

variable (hself : f' a = some n) (hother : ∀ k, k ≠ a → f' k = f k)
  (hfree : ∀ x, a ≤ x → x < a + n → ¬ Covers f x) (hn : 0 < n)

include hself hother hfree hn

theorem covers_insert (t : Tiling f) (x : Nat) :
    Covers f' x ↔ Covers f x ∨ (a ≤ x ∧ x < a + n) := by
  constructor
  · rintro ⟨k, m, hk, hle, hlt⟩
    by_cases hka : k = a
    · subst hka
      obtain rfl : m = n := Option.some.inj (hk.symm.trans hself)
      exact Or.inr ⟨hle, hlt⟩
    · exact Or.inl (covers_of_block ((hother k hka).symm.trans hk) hle hlt)
  · rintro (⟨k, m, hk, hle, hlt⟩ | ⟨hle, hlt⟩)
    · refine covers_of_block ((hother k ?_).trans hk) hle hlt
      rintro rfl
      exact hfree k (Nat.le_refl k) (by omega) (covers_of_block hk (Nat.le_refl k)
        (Nat.lt_add_of_pos_right (t.pos hk)))
    · exact covers_of_block hself hle hlt

theorem tiling_insert (t : Tiling f) : Tiling f' := by
  have hcases : ∀ k m, f' k = some m → (k = a ∧ m = n) ∨ (k ≠ a ∧ f k = some m) := by
    intro k m hk
    by_cases hka : k = a
    · subst hka
      exact Or.inl ⟨rfl, Option.some.inj (hk.symm.trans hself)⟩
    · exact Or.inr ⟨hka, (hother k hka).symm.trans hk⟩
  refine ⟨?_, ?_⟩
  · intro k m hk
    rcases hcases k m hk with ⟨-, rfl⟩ | ⟨-, hk⟩
    · exact hn
    · exact t.pos hk
  · intro k m k' m' hk hk' hlt
    rcases hcases k m hk with ⟨rfl, rfl⟩ | ⟨-, hk⟩
    · rcases hcases k' m' hk' with ⟨rfl, -⟩ | ⟨-, hk'⟩
      · exact absurd hlt (Nat.lt_irrefl _)
      · -- A later block that starts inside the new one would cover its own start.
        rcases Nat.lt_or_ge k' (k + m) with hin | hge
        · exact absurd (covers_of_block hk' (Nat.le_refl k')
            (Nat.lt_add_of_pos_right (t.pos hk'))) (hfree k' (Nat.le_of_lt hlt) hin)
        · exact hge
    · rcases hcases k' m' hk' with ⟨rfl, rfl⟩ | ⟨-, hk'⟩
      · rcases Nat.lt_or_ge k' (k + m) with hin | hge
        · exact absurd (covers_of_block hk (Nat.le_of_lt hlt) hin)
            (hfree k' (Nat.le_refl k') (by omega))
        · exact hge
      · exact t.apart hk hk' hlt

end Insert

end Blocks
