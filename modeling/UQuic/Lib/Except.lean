/-
# `UQuic.Lib.Except` — what a computation that may fail establishes

Two ways to reason about a computation in `Except`.  Backwards, when it is known
to have returned: the `_iff` lemmas peel it apart, one operation at a time.
Forwards, when nothing is known: `x.Meets Q E` says that a result satisfies `Q`
and an error satisfies `E`, and the rules below follow the structure of the
program — sequencing, mapping, and a loop with an invariant over what is left to
do.
-/
import Mathlib

universe u v

namespace Except

variable {ε : Type u} {α β : Type v} {x : Except ε α}

/-! ## Backwards -/

theorem ok_ne_error {a : α} {e : ε} : (Except.ok a : Except ε α) ≠ .error e := nofun

@[simp] theorem map_eq_ok_iff {f : α → β} {b : β} : x.map f = .ok b ↔ ∃ a, x = .ok a ∧ f a = b := by
  cases x with
  | error e | ok a => simp [Except.map]

@[simp] theorem bind_eq_ok_iff {f : α → Except ε β} {b : β} :
    x.bind f = .ok b ↔ ∃ a, x = .ok a ∧ f a = .ok b := by
  cases x with
  | error e | ok a => simp [Except.bind]

@[simp] theorem toOption_eq_some_iff {a : α} : x.toOption = some a ↔ x = .ok a := by
  cases x with
  | error e | ok a => simp [Except.toOption]

/-! ## Forwards -/

/-- A result satisfies `Q`, an error satisfies `E`. -/
def Meets (Q : α → Prop) (E : ε → Prop) : Except ε α → Prop
  | .ok a => Q a
  | .error e => E e

variable {Q : α → Prop} {R : β → Prop} {E : ε → Prop}

@[simp] theorem meets_ok {a : α} : (Except.ok a : Except ε α).Meets Q E ↔ Q a := Iff.rfl

theorem Meets.mono {Q' : α → Prop} (h : x.Meets Q E) (hQ : ∀ a, Q a → Q' a) : x.Meets Q' E := by
  cases x with
  | error e => exact h
  | ok a => exact hQ a h

/-- The same, with the result at hand. -/
theorem Meets.mono_eq {Q' : α → Prop} (h : x.Meets Q E) (hQ : ∀ a, x = .ok a → Q a → Q' a) :
    x.Meets Q' E := by
  cases x with
  | error e => exact h
  | ok a => exact hQ a rfl h

theorem Meets.mono_error {E' : ε → Prop} (h : x.Meets Q E)
    (hE : ∀ e, E e → E' e) : x.Meets Q E' := by
  cases x with
  | error e => exact hE e h
  | ok a => exact h

/-- Sequencing: the first result must make the rest meet its goal. -/
theorem Meets.bind {f : α → Except ε β} (h : x.Meets Q E) (hf : ∀ a, Q a → (f a).Meets R E) :
    (x >>= f).Meets R E := by
  cases x with
  | error e => exact h
  | ok a => exact hf a h

theorem Meets.map {f : α → β} (h : x.Meets Q E) (hf : ∀ a, Q a → R (f a)) :
    (x.map f).Meets R E := by
  cases x with
  | error e => exact h
  | ok a => exact hf a h

theorem Meets.of_eq_ok {a : α} (h : x.Meets Q E) (hx : x = .ok a) : Q a := by
  rw [hx] at h
  exact h

theorem Meets.of_eq_error {e : ε} (h : x.Meets Q E) (hx : x = .error e) : E e := by
  rw [hx] at h
  exact h

/-- A loop: the invariant speaks about the elements still to come. -/
theorem Meets.foldlM {f : β → α → Except ε β} {I : List α → β → Prop}
    (hs : ∀ a rest b, I (a :: rest) b → (f b a).Meets (I rest) E) :
    ∀ {l : List α} {b : β}, I l b → (l.foldlM f b).Meets (I []) E
  | [], _, h => h
  | a :: rest, b, h => by
    rw [List.foldlM_cons]
    exact (hs a rest b h).bind fun b' hb' => Meets.foldlM hs hb'

/-- A loop that ended: the invariant speaks about the elements already processed. -/
theorem foldlM_snoc {f : β → α → Except ε β} {J : List α → β → Prop}
    (hs : ∀ done a b b', J done b → f b a = .ok b' → J (done ++ [a]) b') {l : List α} {b b' : β}
    (h₀ : J [] b) (h : l.foldlM f b = .ok b') : J l b' := by
  suffices hall : ∀ (l done : List α) (b : β), J done b → l.foldlM f b = .ok b' →
      J (done ++ l) b' from hall l [] b h₀ h
  intro l
  induction l with
  | nil =>
    intro done b hb hl
    cases hl
    rw [List.append_nil]
    exact hb
  | cons a rest ih =>
    intro done b hb hl
    rw [List.foldlM_cons] at hl
    obtain ⟨b₁, hstep, hrest⟩ := bind_eq_ok_iff.mp hl
    rw [List.append_cons]
    exact ih (done ++ [a]) b₁ (hs done a b b₁ hb hstep) hrest

end Except
