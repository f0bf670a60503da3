/-
# `UQuic.Lib.Parser` — taking values off the front of an input

A parser returns a value and what is left of its input, or an error.  What matters of
a parser for an encoding is which pieces of input it takes for which values:

    Reads p piece a rest     before `rest`, `p` takes exactly `piece`, for `a`

A format whose pieces end by themselves is read before every `rest`; one that goes on
to the end of the input only before the empty one.  The rules follow the structure of
the parser, so that the proof of a round trip has the shape of the parser.
-/
import Mathlib

universe u

/-- A parser of values of type `α` from a list of `σ`. -/
def Parser (σ ε α : Type u) : Type u := List σ → Except ε (α × List σ)

namespace Parser

variable {σ ε α β : Type u}

instance : Monad (Parser σ ε) where
  pure a := fun input => .ok (a, input)
  bind p f := fun input =>
    match p input with
    | .error e => .error e
    | .ok (a, rest) => f a rest

/-- An error, whatever the input. -/
def fail (e : ε) : Parser σ ε α := fun _ => .error e

/-- Go on under a condition only. -/
def check (c : Prop) [Decidable c] (e : ε) : Parser σ ε PUnit :=
  fun input => if c then .ok (⟨⟩, input) else .error e

/-- A function that answers `none` for an error. -/
def ofOption (e : ε) (f : List σ → Option (α × List σ)) : Parser σ ε α := fun input =>
  match f input with
  | none => .error e
  | some r => .ok r

def take (e : ε) (n : Nat) : Parser σ ε (List σ) := fun input =>
  if input.length < n then .error e else .ok (input.take n, input.drop n)

def takeArray (e : ε) (n : Nat) : Parser σ ε (Vector σ n) := fun input =>
  if h : input.length < n then .error e
  else .ok (⟨(input.take n).toArray, by simp; omega⟩, input.drop n)

def takeRest : Parser σ ε (List σ) := fun input => .ok (input, [])

/-- Run the parser, and count what it takes. -/
def count (p : Parser σ ε α) (input : List σ) : Except ε (α × Nat) :=
  match p input with
  | .error e => .error e
  | .ok (a, rest) => .ok (a, input.length - rest.length)

theorem bind_apply (p : Parser σ ε α) (f : α → Parser σ ε β) (input : List σ) :
    (p >>= f) input =
      match p input with
      | .error e => .error e
      | .ok (a, rest) => f a rest :=
  rfl

/-! ## What a parser reads -/

/-- Before `rest`, the parser takes `piece` for `a`. -/
def Reads (p : Parser σ ε α) (piece : List σ) (a : α) (rest : List σ) : Prop :=
  p (piece ++ rest) = .ok (a, rest)

namespace Reads

variable {p : Parser σ ε α} {f : α → Parser σ ε β} {piece more rest : List σ} {a : α} {b : β}

theorem pure : Reads (Pure.pure a : Parser σ ε α) [] a rest := rfl

theorem bind (hp : Reads p piece a (more ++ rest)) (hf : Reads (f a) more b rest) :
    Reads (p >>= f) (piece ++ more) b rest := by
  rw [Reads, bind_apply, List.append_assoc, hp]
  exact hf

/-- Nothing is left to take after the first parser. -/
theorem bind_end (hp : Reads p piece a rest) (hf : Reads (f a) [] b rest) :
    Reads (p >>= f) piece b rest := by
  rw [Reads, bind_apply, hp]
  exact hf

theorem bind_pure {g : α → β} (hp : Reads p piece a rest) :
    Reads (p >>= fun a => Pure.pure (g a)) piece (g a) rest :=
  bind_end hp pure

/-- A parser that takes nothing for its answer. -/
theorem bind_nil (hp : Reads p [] a (more ++ rest)) (hf : Reads (f a) more b rest) :
    Reads (p >>= f) more b rest :=
  bind hp hf

theorem map {g : α → β} (hp : Reads p piece a rest) : Reads (g <$> p) piece (g a) rest :=
  bind_pure hp

theorem check {c : Prop} [Decidable c] {e : ε} (h : c) :
    Reads (Parser.check c e : Parser σ ε PUnit) [] ⟨⟩ rest :=
  if_pos h

theorem ofOption {e : ε} {f : List σ → Option (α × List σ)}
    (h : f (piece ++ rest) = some (a, rest)) :
    Reads (Parser.ofOption e f) piece a rest := by
  rw [Reads, Parser.ofOption, h]

theorem take {e : ε} : Reads (Parser.take e piece.length) piece piece rest := by
  have hlen : ¬ (piece ++ rest).length < piece.length := by
    rw [List.length_append]
    omega
  rw [Reads, Parser.take, if_neg hlen, List.take_left, List.drop_left]

theorem takeArray {n : Nat} {e : ε} (v : Vector σ n) :
    Reads (Parser.takeArray e n) v.toList v rest := by
  have hn : v.toList.length = n := Vector.length_toList
  have hlen : ¬ (v.toList ++ rest).length < n := by
    rw [List.length_append]
    omega
  have htake : (v.toList ++ rest).take n = v.toList := List.take_left' hn
  have hdrop : (v.toList ++ rest).drop n = rest := List.drop_left' hn
  rw [Reads, Parser.takeArray, dif_neg hlen, hdrop]
  congr 2
  apply Vector.toArray_inj.mp
  show ((v.toList ++ rest).take n).toArray = v.toArray
  rw [htake, Vector.toList, Array.toArray_toList]

theorem takeRest : Reads (Parser.takeRest : Parser σ ε (List σ)) piece piece [] := by
  rw [Reads, List.append_nil]
  rfl

/-- As much is counted as the piece has. -/
theorem count (hp : Reads p piece a rest) : p.count (piece ++ rest) = .ok (a, piece.length) := by
  rw [Parser.count, hp]
  show Except.ok (a, (piece ++ rest).length - rest.length) = _
  rw [List.length_append, Nat.add_sub_cancel]

end Reads

/-! ## What a parser may return -/

/-- What the parser returns satisfies `Q`, and what it leaves is the end of its input. -/
def Returns (p : Parser σ ε α) (Q : α → Prop) : Prop :=
  ∀ input a rest, p input = .ok (a, rest) → Q a ∧ rest <:+ input

namespace Returns

variable {p : Parser σ ε α} {f : α → Parser σ ε β} {P : α → Prop} {Q : β → Prop}

theorem pure {b : β} (h : Q b) : Returns (Pure.pure b : Parser σ ε β) Q := by
  rintro input _ _ ⟨⟩
  exact ⟨h, List.suffix_rfl⟩

theorem bind (hp : Returns p P) (hf : ∀ a, P a → Returns (f a) Q) : Returns (p >>= f) Q := by
  intro input b rest h
  rw [bind_apply] at h
  cases hr : p input with
  | error e =>
    rw [hr] at h
    cases h
  | ok r =>
    rw [hr] at h
    obtain ⟨ha, hleft⟩ := hp input r.1 r.2 hr
    obtain ⟨hb, hrest⟩ := hf r.1 ha r.2 b rest h
    exact ⟨hb, hrest.trans hleft⟩

theorem check {c : Prop} [Decidable c] {e : ε} :
    Returns (Parser.check c e : Parser σ ε PUnit) fun _ => c := by
  intro input a rest h
  rw [Parser.check] at h
  split at h
  · cases h
    exact ⟨‹c›, List.suffix_rfl⟩
  · cases h

end Returns

end Parser
