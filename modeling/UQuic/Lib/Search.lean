/-
# `UQuic.Lib.Search` — binary search for the first index that meets a condition

`search n f` looks for the first index below `n` at which `f` holds, by halving the
interval.  It is `n` if there is none.

## What is proved

Whatever `f` is, it holds at the index that is found and not directly before
(`search_spec`); so if it goes on holding once it holds, the index is the first one
(`search_le_iff`).
-/
import Mathlib

namespace Search

/-- The loop: what is left lies between `i` and `j`. -/
def searchLoop (f : Nat → Bool) : Nat → Nat → Nat → Nat
  | 0, i, _ => i
  | fuel + 1, i, j =>
    if i < j then
      if f ((i + j) / 2) then searchLoop f fuel i ((i + j) / 2)
      else searchLoop f fuel ((i + j) / 2 + 1) j
    else i

/-- The first index below `n` at which `f` holds.  The interval gets smaller in every round, so
that `n` rounds are enough. -/
def search (n : Nat) (f : Nat → Bool) : Nat := searchLoop f n 0 n

variable {f : Nat → Bool} {n : Nat}

/-- Where the loop stops: between an index at which `f` does not hold and one at which it does. -/
theorem searchLoop_spec : ∀ (fuel i j : Nat), j - i ≤ fuel → i ≤ j → j ≤ n →
    (j < n → f j = true) → (0 < i → f (i - 1) = false) →
    searchLoop f fuel i j ≤ n ∧ (searchLoop f fuel i j < n → f (searchLoop f fuel i j) = true) ∧
      (0 < searchLoop f fuel i j → f (searchLoop f fuel i j - 1) = false) := by
  intro fuel
  induction fuel with
  | zero =>
    intro i j hfuel hij hjn hj hi
    have heq : i = j := by omega
    subst heq
    exact ⟨hjn, hj, hi⟩
  | succ fuel ih =>
    intro i j hfuel hij hjn hj hi
    rw [searchLoop]
    split
    · split
      · rename_i hf
        exact ih i ((i + j) / 2) (by omega) (by omega) (by omega) (fun _ => hf) hi
      · rename_i hf
        exact ih ((i + j) / 2 + 1) j (by omega) (by omega) hjn hj fun _ => Bool.eq_false_iff.mpr hf
    · have heq : i = j := by omega
      subst heq
      exact ⟨hjn, hj, hi⟩

theorem search_spec (n : Nat) (f : Nat → Bool) : search n f ≤ n ∧
    (search n f < n → f (search n f) = true) ∧ (0 < search n f → f (search n f - 1) = false) :=
  searchLoop_spec n 0 n (Nat.le_refl _) (Nat.zero_le _) (Nat.le_refl _)
    (fun h => absurd h (Nat.lt_irrefl _)) fun h => absurd h (Nat.lt_irrefl _)

/-- If `f` goes on holding once it holds, the index is the first one. -/
theorem search_le_iff (hmono : ∀ i j, i ≤ j → j < n → f i = true → f j = true) {i : Nat}
    (hi : i < n) : search n f ≤ i ↔ f i = true := by
  obtain ⟨hle, hat, hbefore⟩ := search_spec n f
  constructor
  · intro h
    exact hmono _ i h hi (hat (Nat.lt_of_le_of_lt h hi))
  · intro hf
    refine Nat.le_of_not_lt fun hlt => ?_
    have hprev := hmono i (search n f - 1) (by omega) (by omega) hf
    rw [hbefore (by omega)] at hprev
    cases hprev

end Search
