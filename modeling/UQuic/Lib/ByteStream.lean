/-
# `UQuic.Lib.ByteStream` — reading a stream of bytes piece by piece

A stream yields its bytes in pieces whose sizes it chooses itself, and then an error;
the error may come with the last bytes already.  A caller says how much room it has.

    read n        some of the next `n` bytes, at least one unless `n` is 0
    readByte      one byte, whose error is forgotten if it is `eof`
    readFull n    `n` bytes, by reading until they are there
    copyN n       skip `n` bytes, by reading them through a buffer
    cancel e      give up: from now on there is an error

## What is proved

A read yields a first part of the bytes that are left (`read_cases`).  For `readByte` the
pieces do not matter (`readByte_cons`, `readByte_nil`).
-/
import Mathlib

universe u

/-- The errors of reading. -/
inductive ReadError (ε : Type u)
  | eof
  | unexpectedEOF
  | other (e : ε)
  deriving DecidableEq, Repr

/-- The bytes that are left, the error after them, and how the reads split them: the size of
the piece for each read, and whether an error comes with the last byte. -/
structure ByteStream (ε : Type u) where
  rest : List UInt8
  ending : ReadError ε
  pieces : Nat → Nat × Bool
  calls : Nat

namespace ByteStream

open List

variable {ε : Type u}

/-- How many bytes a read with room for `n` yields, if there are enough. -/
def pieceSize (s : ByteStream ε) (n : Nat) : Nat := min n ((s.pieces s.calls).1 + 1)

/-- The stream after `k` bytes were read. -/
def advance (s : ByteStream ε) (k : Nat) : ByteStream ε :=
  { s with rest := s.rest.drop k, calls := s.calls + 1 }

/-- Read into room for `n` bytes. -/
def read (s : ByteStream ε) (n : Nat) : (List UInt8 × Option (ReadError ε)) × ByteStream ε :=
  let left := s.rest.drop (s.pieceSize n)
  ((s.rest.take (s.pieceSize n),
    if left.isEmpty && ((s.pieces s.calls).2 || s.rest.isEmpty && decide (0 < n))
    then some s.ending else none), s.advance (s.pieceSize n))

def readByte (s : ByteStream ε) : Except (ReadError ε) UInt8 × ByteStream ε :=
  match s.read 1 with
  | ((b :: _, none), s) => (.ok b, s)
  | ((b :: _, some .eof), s) => (.ok b, s)
  | ((_, some e), s) => (.error e, s)
  | (([], none), s) => (.ok 0, s)

/-- The loop of `readFull`: `n` bytes are missing.  Every round reads a byte or ends, so that
the first argument is not used up. -/
def readLoop : Nat → Nat → List UInt8 → ByteStream ε →
    (List UInt8 × Option (ReadError ε)) × ByteStream ε
  | 0, _, acc, s => ((acc, none), s)
  | fuel + 1, n, acc, s =>
    if n = 0 then ((acc, none), s)
    else
      match s.read n with
      | ((data, none), s) => readLoop fuel (n - data.length) (acc ++ data) s
      | ((data, some e), s) => ((acc ++ data, some e), s)

def readFull (s : ByteStream ε) (n : Nat) : Except (ReadError ε) (List UInt8) × ByteStream ε :=
  match readLoop (n + 1) n [] s with
  | ((data, err), s) =>
    if n ≤ data.length then (.ok data, s)
    else
      match err with
      | none => (.ok data, s)
      | some .eof => (.error (if data = [] then .eof else .unexpectedEOF), s)
      | some e => (.error e, s)

/-- The size of the buffer that `copyN` discards bytes through. -/
def discardSize : Nat := 8192

/-- The loop of `copyN`: `n` bytes are to be skipped. -/
def copyLoop : Nat → Nat → ByteStream ε → Option (ReadError ε) × ByteStream ε
  | 0, _, s => (none, s)
  | fuel + 1, n, s =>
    if n = 0 then (none, s)
    else
      match s.read (min n discardSize) with
      | ((data, none), s) => copyLoop fuel (n - data.length) s
      | ((data, some e), s) => (if data.length = n then none else some e, s)

def copyN (s : ByteStream ε) (n : Nat) : Option (ReadError ε) × ByteStream ε := copyLoop (n + 1) n s

/-- Give up reading: the rest is gone.  An end that came with the last bytes stays. -/
def cancel (s : ByteStream ε) (e : ε) : ByteStream ε :=
  { s with
    rest := []
    ending := if s.rest.isEmpty && (s.pieces (s.calls - 1)).2 then s.ending else .other e }

/-! ## One read -/

variable {s : ByteStream ε} {n : Nat}

@[simp] theorem rest_advance (k : Nat) : (s.advance k).rest = s.rest.drop k := rfl

theorem pieceSize_le (s : ByteStream ε) (n : Nat) : s.pieceSize n ≤ n := Nat.min_le_left _ _

theorem pieceSize_pos (hn : 0 < n) : 0 < s.pieceSize n := Nat.lt_min.mpr ⟨hn, Nat.succ_pos _⟩

/-- A read yields a first part of the bytes, and no error before the last one. -/
theorem read_cases (s : ByteStream ε) (n : Nat) :
    ∃ k err, s.read n = ((s.rest.take k, err), s.advance k) ∧ k ≤ min n s.rest.length ∧
      (0 < n → s.rest ≠ [] → 0 < k) ∧
      (err = none ∧ (0 < n → s.rest ≠ []) ∨ err = some s.ending ∧ s.rest.drop k = []) := by
  refine ⟨min (s.pieceSize n) s.rest.length, (s.read n).1.2, ?_,
    min_le_min_right _ (pieceSize_le s n),
    fun hn hne => Nat.lt_min.mpr ⟨pieceSize_pos hn, length_pos_iff.mpr hne⟩, ?_⟩
  · rw [← take_eq_take_min, advance, ← drop_eq_drop_min]
    rfl
  rw [read]
  split
  · rename_i h
    rw [Bool.and_eq_true, List.isEmpty_iff, drop_eq_drop_min] at h
    exact Or.inr ⟨rfl, h.1⟩
  · rename_i h
    refine Or.inl ⟨rfl, fun hn hnil => h ?_⟩
    simp [hnil, hn]

/-- At the end there is only the error. -/
theorem read_nil (hnil : s.rest = []) (hn : 0 < n) :
    ∃ k, s.read n = (([], some s.ending), s.advance k) := by
  refine ⟨s.pieceSize n, ?_⟩
  simp [read, hnil, hn]

theorem readByte_cons {b : UInt8} {l : List UInt8} (hrest : s.rest = b :: l)
    (hend : s.ending = .eof) : ∃ k, s.readByte = (.ok b, s.advance k) ∧ s.rest.drop k = l := by
  obtain ⟨k, err, hread, hle, hpos, herr⟩ := read_cases s 1
  have hk : k = 1 :=
    Nat.le_antisymm (Nat.le_min.mp hle).1 (hpos Nat.one_pos (by rw [hrest]; nofun))
  subst hk
  have htake : s.rest.take 1 = [b] := by
    rw [hrest]
    rfl
  refine ⟨1, ?_, by rw [hrest]; rfl⟩
  rw [readByte, hread, htake]
  rcases herr with ⟨rfl, -⟩ | ⟨rfl, -⟩
  · rfl
  · rw [hend]

theorem readByte_nil (hnil : s.rest = []) : ∃ k, s.readByte = (.error s.ending, s.advance k) := by
  obtain ⟨k, hread⟩ := read_nil hnil Nat.one_pos
  exact ⟨k, by rw [readByte, hread]⟩

/-- `t` is the stream `s` after reads that leave `l`. -/
structure Follows (s : ByteStream ε) (l : List UInt8) (t : ByteStream ε) : Prop where
  rest : t.rest = l
  ending : t.ending = s.ending

end ByteStream
