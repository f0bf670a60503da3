/-
# `UQuic.QuicVarint` — variable-length integers

`quicvarint/varint.go`.  The two highest bits of the first byte say how many
bytes there are; the rest is the number, most significant byte first.  Numbers
that need more than 62 bits make `Append` and `Len` panic: `none` here.

## What is proved

What `Append` writes is as long as `Len` says, and `Parse` reads it back whatever
follows it (`parse_encode`); `AppendWithLen` writes as many bytes as it is told to
(`appendWithLen_eq`), and `Parse` reads them back as well (`parse_encodeWithLen`).
`room` is how much data a frame of a given size has room for (`fits_of_le_room`, `le_room`).
-/
import Mathlib

namespace UQuic.QuicVarint

open List Option

/-- `maxVarInt8`, the largest number there is an encoding for. -/
def maxVarInt8 : Nat := 2 ^ 62 - 1

/-- `Len`, for a number that fits. -/
def size (i : Nat) : Nat :=
  if i ≤ 63 then 1 else if i ≤ 16383 then 2 else if i ≤ 1073741823 then 4 else 8

def len (i : Nat) : Option Nat := if i ≤ maxVarInt8 then some (size i) else none

/-- The bytes `Append` adds, for a number that fits. -/
def encode (i : Nat) : List UInt8 :=
  if i ≤ 63 then [.ofNat i]
  else if i ≤ 16383 then [.ofNat (i >>> 8) ||| 0x40, .ofNat i]
  else if i ≤ 1073741823 then
    [.ofNat (i >>> 24) ||| 0x80, .ofNat (i >>> 16), .ofNat (i >>> 8), .ofNat i]
  else
    [.ofNat (i >>> 56) ||| 0xc0, .ofNat (i >>> 48), .ofNat (i >>> 40), .ofNat (i >>> 32),
      .ofNat (i >>> 24), .ofNat (i >>> 16), .ofNat (i >>> 8), .ofNat i]

def append (b : List UInt8) (i : Nat) : Option (List UInt8) :=
  if i ≤ maxVarInt8 then some (b ++ encode i) else none

/-- `AppendWithLen`. -/
def appendWithLen (b : List UInt8) (i length : Nat) : Option (List UInt8) :=
  if length ≠ 1 ∧ length ≠ 2 ∧ length ≠ 4 ∧ length ≠ 8 then none
  else (len i).bind fun l =>
    if l = length then append b i
    else if length < l then none
    else
      let b := if length = 2 then b ++ [0b01000000] else if length = 4 then b ++ [0b10000000]
        else if length = 8 then b ++ [0b11000000] else b
      let b := (range' 1 (length - l - 1)).foldl (fun b _ => b ++ [0]) b
      some ((range l).foldl (fun b j => b ++ [.ofNat (i >>> (8 * (l - 1 - j)))]) b)

/-- `Parse`: the number and how many bytes it took; `none` if there are too few. -/
def parse : List UInt8 → Option (Nat × Nat)
  | [] => none
  | firstByte :: rest =>
    let b0 := (firstByte &&& 0x3f).toNat
    match ((firstByte &&& 0xc0) >>> 6).toNat, rest with
    | 0, _ => some (b0, 1)
    | 1, b1 :: _ => some (b1.toNat + b0 <<< 8, 2)
    | 2, b1 :: b2 :: b3 :: _ =>
      some (b3.toNat + b2.toNat <<< 8 + b1.toNat <<< 16 + b0 <<< 24, 4)
    | 3, b1 :: b2 :: b3 :: b4 :: b5 :: b6 :: b7 :: _ =>
      some (b7.toNat + b6.toNat <<< 8 + b5.toNat <<< 16 + b4.toNat <<< 24 + b3.toNat <<< 32 +
        b2.toNat <<< 40 + b1.toNat <<< 48 + b0 <<< 56, 8)
    | _, _ => none

/-- `Parse`, and what is left after the number. -/
def read (b : List UInt8) : Option (Nat × List UInt8) :=
  (parse b).map fun r => (r.1, b.drop r.2)

variable {i n : Nat}

theorem length_encode : (encode i).length = size i := by
  simp only [encode, size]
  split
  · rfl
  · split
    · rfl
    · split <;> rfl

theorem size_pos (i : Nat) : 0 < size i := by
  simp only [size]
  split
  · exact Nat.one_pos
  · split
    · exact Nat.two_pos
    · split <;> decide

theorem size_cases (i : Nat) : size i = 1 ∧ i ≤ 63 ∨ size i = 2 ∧ i ≤ 16383 ∨
    size i = 4 ∧ i ≤ 1073741823 ∨ size i = 8 := by
  rw [size]
  split_ifs <;> omega

theorem size_bounds (n : Nat) :
    (n ≤ 63 → size n = 1) ∧ (63 < n → 2 ≤ size n) ∧ (n ≤ 16383 → size n ≤ 2) := by
  rw [size]
  split_ifs <;> omega

theorem append_eq (b : List UInt8) (h : i ≤ maxVarInt8) : append b i = some (b ++ encode i) :=
  if_pos h

theorem append_eq_some {b c : List UInt8} (h : append b i = some c) :
    i ≤ maxVarInt8 ∧ c = b ++ encode i := by
  rw [append] at h
  split_ifs at h with hi
  exact ⟨hi, (Option.some.inj h).symm⟩

theorem len_eq (h : i ≤ maxVarInt8) : len i = some (size i) := if_pos h

theorem eq_size_of_len (h : len i = some n) : n = size i := by
  rw [len] at h
  split_ifs at h
  exact (Option.some.inj h).symm

/-- The first byte: six bits of the number under the two bits `64 * k` of the length. -/
theorem first_byte : ∀ n : Fin 64, ∀ k : Fin 4,
    let first := UInt8.ofNat n.val ||| UInt8.ofNat (64 * k.val)
    ((first &&& 0xc0) >>> 6).toNat = k.val ∧ (first &&& 0x3f).toNat = n.val := by
  decide +kernel

theorem parse_one (h : n < 64) (rest : List UInt8) : parse (.ofNat n :: rest) = some (n, 1) := by
  obtain ⟨hk, hn⟩ : (((UInt8.ofNat n ||| 0) &&& 0xc0) >>> 6).toNat = 0 ∧
      ((UInt8.ofNat n ||| 0) &&& 0x3f).toNat = n := first_byte ⟨n, h⟩ 0
  rw [UInt8.or_zero] at hk hn
  simp only [parse, hk, hn]

theorem parse_two (h : n < 64) (b1 : UInt8) (rest : List UInt8) :
    parse ((.ofNat n ||| 0x40) :: b1 :: rest) = some (b1.toNat + n <<< 8, 2) := by
  obtain ⟨hk, hn⟩ : (((UInt8.ofNat n ||| 0x40) &&& 0xc0) >>> 6).toNat = 1 ∧
      ((UInt8.ofNat n ||| 0x40) &&& 0x3f).toNat = n := first_byte ⟨n, h⟩ 1
  simp only [parse, hk, hn]

theorem parse_four (h : n < 64) (b1 b2 b3 : UInt8) (rest : List UInt8) :
    parse ((.ofNat n ||| 0x80) :: b1 :: b2 :: b3 :: rest) =
      some (b3.toNat + b2.toNat <<< 8 + b1.toNat <<< 16 + n <<< 24, 4) := by
  obtain ⟨hk, hn⟩ : (((UInt8.ofNat n ||| 0x80) &&& 0xc0) >>> 6).toNat = 2 ∧
      ((UInt8.ofNat n ||| 0x80) &&& 0x3f).toNat = n := first_byte ⟨n, h⟩ 2
  simp only [parse, hk, hn]

theorem parse_eight (h : n < 64) (b1 b2 b3 b4 b5 b6 b7 : UInt8) (rest : List UInt8) :
    parse ((.ofNat n ||| 0xc0) :: b1 :: b2 :: b3 :: b4 :: b5 :: b6 :: b7 :: rest) =
      some (b7.toNat + b6.toNat <<< 8 + b5.toNat <<< 16 + b4.toNat <<< 24 + b3.toNat <<< 32 +
        b2.toNat <<< 40 + b1.toNat <<< 48 + n <<< 56, 8) := by
  obtain ⟨hk, hn⟩ : (((UInt8.ofNat n ||| 0xc0) &&& 0xc0) >>> 6).toNat = 3 ∧
      ((UInt8.ofNat n ||| 0xc0) &&& 0x3f).toNat = n := first_byte ⟨n, h⟩ 3
  simp only [parse, hk, hn]

/-- **Round trip.**  `Parse` reads back what `Append` writes. -/
theorem parse_encode (h : i ≤ maxVarInt8) (rest : List UInt8) :
    parse (encode i ++ rest) = some (i, size i) := by
  have hmax : i < 2 ^ 62 := Nat.lt_of_le_pred (by decide) h
  simp only [encode, size]
  split
  · exact parse_one (by omega) rest
  · split
    · have hn : i >>> 8 < 64 := by
        rw [Nat.shiftRight_eq_div_pow]
        omega
      refine (parse_two hn _ rest).trans ?_
      simp only [UInt8.toNat_ofNat', Nat.shiftRight_eq_div_pow, Nat.shiftLeft_eq]
      congr 2
      omega
    · split
      · have hn : i >>> 24 < 64 := by
          rw [Nat.shiftRight_eq_div_pow]
          omega
        refine (parse_four hn _ _ _ rest).trans ?_
        simp only [UInt8.toNat_ofNat', Nat.shiftRight_eq_div_pow, Nat.shiftLeft_eq]
        congr 2
        omega
      · have hn : i >>> 56 < 64 := by
          rw [Nat.shiftRight_eq_div_pow]
          omega
        refine (parse_eight hn _ _ _ _ _ _ _ rest).trans ?_
        simp only [UInt8.toNat_ofNat', Nat.shiftRight_eq_div_pow, Nat.shiftLeft_eq]
        congr 2
        omega

/-- A number takes a byte at least, and has at most 62 bits. -/
theorem parse_bounds {b : List UInt8} {v : Nat} (h : parse b = some (v, n)) :
    0 < n ∧ v < 2 ^ 62 := by
  cases b with
  | nil => cases h
  | cons x b =>
    have hx : (x &&& 0x3f).toNat ≤ 63 := by
      rw [UInt8.toNat_and]
      exact Nat.and_le_right
    unfold parse at h
    dsimp only at h
    generalize ((x &&& 0xc0) >>> 6).toNat = k at h
    generalize (x &&& 0x3f).toNat = b0 at h hx
    simp only [Nat.shiftLeft_eq] at h
    split at h
    · cases h
      omega
    · rename_i b1 _
      cases h
      have := b1.toNat_lt
      omega
    · rename_i b1 b2 b3 _
      cases h
      have := b1.toNat_lt
      have := b2.toNat_lt
      have := b3.toNat_lt
      omega
    · rename_i b1 b2 b3 b4 b5 b6 b7 _
      cases h
      have := b1.toNat_lt
      have := b2.toNat_lt
      have := b3.toNat_lt
      have := b4.toNat_lt
      have := b5.toNat_lt
      have := b6.toNat_lt
      have := b7.toNat_lt
      omega
    · cases h

theorem read_encode (h : i ≤ maxVarInt8) (rest : List UInt8) :
    read (encode i ++ rest) = some (i, rest) := by
  rw [read, parse_encode h rest, map_some, ← length_encode, drop_left]

/-- A sequence of numbers, one after the other. -/
theorem foldlM_append : ∀ (is : List Nat) (b : List UInt8), (∀ i ∈ is, i ≤ maxVarInt8) →
    is.foldlM append b = some (b ++ is.flatMap encode)
  | [], b, _ => by simp
  | i :: is, b, h => by
    have hi := h i mem_cons_self
    have his := fun j hj => h j (mem_cons_of_mem i hj)
    rw [foldlM_cons, append_eq b hi, bind_eq_bind, bind_some,
      foldlM_append is _ his, flatMap_cons, append_assoc]

/-- A sequence that is written is written behind what is there. -/
theorem foldlM_append_eq_some : ∀ {is : List Nat} {b c : List UInt8},
    is.foldlM append b = some c → c = b ++ is.flatMap encode
  | [], b, c, h => by
    cases h
    rw [flatMap_nil, append_nil]
  | i :: is, b, c, h => by
    rw [foldlM_cons] at h
    obtain ⟨d, hd, h⟩ := bind_eq_some_iff.mp h
    rw [foldlM_append_eq_some h, (append_eq_some hd).2, flatMap_cons, append_assoc]

/-- The number of bytes of a sequence of numbers. -/
theorem foldlM_len : ∀ (is : List Nat) (n : Nat), (∀ i ∈ is, i ≤ maxVarInt8) →
    is.foldlM (fun n i => (len i).map (n + ·)) n = some (n + (is.flatMap encode).length)
  | [], n, _ => by simp
  | i :: is, n, h => by
    have hi := h i mem_cons_self
    have his := fun j hj => h j (mem_cons_of_mem i hj)
    rw [foldlM_cons, len_eq hi, bind_eq_bind, map_some, bind_some,
      foldlM_len is _ his, flatMap_cons, length_append, length_encode, Nat.add_assoc]

/-- What the loops of `AppendWithLen` write behind the bits of the length. -/
def padded (i length : Nat) : List UInt8 :=
  replicate (length - size i - 1) 0 ++
    (range (size i)).map fun j => .ofNat (i >>> (8 * (size i - 1 - j)))

theorem foldl_write {β : Type} (f : β → UInt8) (l : List β) (b : List UInt8) :
    l.foldl (fun b j => b ++ [f j]) b = b ++ l.map f := by
  induction l generalizing b with
  | nil => rw [foldl_nil, map_nil, append_nil]
  | cons j l ih => rw [foldl_cons, ih, append_assoc, map_cons, singleton_append]

theorem length_padded {length : Nat} (h : size i < length) :
    (padded i length).length + 1 = length := by
  rw [padded, length_append, length_replicate, length_map, length_range]
  omega

/-- The first byte has no bits of the number, and the bytes after it hold all of them. -/
theorem parse_padded (rest : List UInt8) :
    (size i < 2 → parse (0x40 :: padded i 2 ++ rest) = some (i, 2)) ∧
    (size i < 4 → parse (0x80 :: padded i 4 ++ rest) = some (i, 4)) ∧
    (size i < 8 → parse (0xc0 :: padded i 8 ++ rest) = some (i, 8)) := by
  have h0 : 0 < 64 := by decide
  have hi := size_cases i
  refine ⟨fun h => ?_, fun h => ?_, fun h => ?_⟩
  · obtain ⟨hs, hi⟩ : size i = 1 ∧ i ≤ 63 := by omega
    rw [padded, hs]
    refine (parse_two h0 _ rest).trans ?_
    simp only [UInt8.toNat_ofNat', Nat.shiftRight_eq_div_pow, Nat.shiftLeft_eq]
    congr 2
    omega
  · obtain ⟨hs, hi⟩ | ⟨hs, hi⟩ : size i = 1 ∧ i ≤ 63 ∨ size i = 2 ∧ i ≤ 16383 := by omega
    all_goals
      rw [padded, hs]
      refine (parse_four h0 _ _ _ rest).trans ?_
      simp only [UInt8.toNat_ofNat', UInt8.toNat_zero, Nat.shiftRight_eq_div_pow, Nat.shiftLeft_eq]
      congr 2
      omega
  · obtain ⟨hs, hi⟩ | ⟨hs, hi⟩ | ⟨hs, hi⟩ : size i = 1 ∧ i ≤ 63 ∨ size i = 2 ∧ i ≤ 16383 ∨
        size i = 4 ∧ i ≤ 1073741823 := by omega
    all_goals
      rw [padded, hs]
      refine (parse_eight h0 _ _ _ _ _ _ _ rest).trans ?_
      simp only [UInt8.toNat_ofNat', UInt8.toNat_zero, Nat.shiftRight_eq_div_pow, Nat.shiftLeft_eq]
      congr 2
      omega

/-- The bytes `AppendWithLen` adds, for a number that fits. -/
def encodeWithLen (i length : Nat) : List UInt8 :=
  if size i = length then encode i
  else (if length = 2 then 0x40 else if length = 4 then 0x80 else 0xc0) :: padded i length

section WithLen

variable {length : Nat} (hl : length = 1 ∨ length = 2 ∨ length = 4 ∨ length = 8)

include hl

/-- Every length that is long enough is written. -/
theorem appendWithLen_eq (b : List UInt8) : appendWithLen b i length =
    if i ≤ maxVarInt8 ∧ size i ≤ length then some (b ++ encodeWithLen i length) else none := by
  rw [appendWithLen, if_neg (by omega), len]
  by_cases hi : i ≤ maxVarInt8
  · rw [if_pos hi, bind_some]
    rcases lt_trichotomy (size i) length with hlt | rfl | hgt
    · have hfits : i ≤ maxVarInt8 ∧ size i ≤ length := ⟨hi, hlt.le⟩
      rw [if_neg hlt.ne, if_neg hlt.not_gt, if_pos hfits, encodeWithLen, if_neg hlt.ne]
      simp only [foldl_write (fun _ => 0), foldl_write, map_const', length_range']
      rcases hl with rfl | rfl | rfl | rfl
      · exact absurd (size_pos i) (Nat.lt_one_iff.mp hlt).not_gt
      all_goals simp [padded]
    · rw [if_pos rfl, if_pos ⟨hi, le_rfl⟩, append_eq b hi, encodeWithLen, if_pos rfl]
    · have hlong : ¬ (i ≤ maxVarInt8 ∧ size i ≤ length) := fun h => hgt.not_ge h.2
      rw [if_neg hgt.ne', if_pos hgt, if_neg hlong]
  · have hlarge : ¬ (i ≤ maxVarInt8 ∧ size i ≤ length) := fun h => hi h.1
    rw [if_neg hi, if_neg hlarge]
    rfl

/-- It has this length, and is read back. -/
theorem parse_encodeWithLen (hi : i ≤ maxVarInt8) (hs : size i ≤ length) (rest : List UInt8) :
    (encodeWithLen i length).length = length ∧
      parse (encodeWithLen i length ++ rest) = some (i, length) := by
  rw [encodeWithLen]
  rcases hs.eq_or_lt with rfl | hlt
  · rw [if_pos rfl]
    exact ⟨length_encode, parse_encode hi rest⟩
  · rw [if_neg hlt.ne]
    refine ⟨length_padded hlt, ?_⟩
    have hread := parse_padded (i := i) rest
    rcases hl with rfl | rfl | rfl | rfl
    · exact absurd (size_pos i) (Nat.lt_one_iff.mp hlt).not_gt
    · exact hread.1 hlt
    · exact hread.2.1 hlt
    · exact hread.2.2 hlt

end WithLen

/-! ## How much data fits -/

/-- `MaxDataLen` of a frame: what `maxSize` leaves behind its header, in which a length field is
counted as one byte. -/
def room (headerLen : Nat) (lenPresent : Bool) (maxSize : Int) : Int :=
  if maxSize < headerLen then 0
  else
    let maxDataLen := maxSize - headerLen
    if lenPresent ∧ size maxDataLen.toNat ≠ 1 then maxDataLen - 1 else maxDataLen

/-- What the length field of `n` bytes takes beyond that one. -/
def excess (lenPresent : Bool) (n : Nat) : Nat := if lenPresent then size n - 1 else 0

variable {headerLen n : Nat} {lenPresent : Bool} {maxSize : Int}

theorem room_cases (headerLen : Nat) (lenPresent : Bool) (maxSize : Int) :
    (maxSize < headerLen ∧ room headerLen lenPresent maxSize = 0) ∨
    (headerLen ≤ maxSize ∧ (lenPresent = true → maxSize - headerLen ≤ 63) ∧
      room headerLen lenPresent maxSize = maxSize - headerLen) ∨
    (lenPresent = true ∧ 63 < maxSize - headerLen ∧
      room headerLen lenPresent maxSize = maxSize - headerLen - 1) := by
  have hsize := size_bounds (maxSize - headerLen).toNat
  rw [room]
  split_ifs with hsmall
  · exact .inl ⟨hsmall, rfl⟩
  · dsimp only
    split_ifs with hlen
    · exact .inr (.inr ⟨hlen.1, by omega, rfl⟩)
    · refine .inr (.inl ⟨by omega, fun hpresent => ?_, rfl⟩)
      have hone := not_not.mp fun hne => hlen ⟨hpresent, hne⟩
      omega

theorem room_nonneg : 0 ≤ room headerLen lenPresent maxSize := by
  rcases room_cases headerLen lenPresent maxSize with h | h | h <;> omega

theorem room_le (hheader : 0 < headerLen) (hmax : maxSize ≤ 16384) :
    room headerLen lenPresent maxSize ≤ 16383 := by
  rcases room_cases headerLen lenPresent maxSize with h | h | h <;> omega

/-- Data of at most that many bytes fits, if there is some or room for it. -/
theorem fits_of_le_room (hn : (n : Int) ≤ room headerLen lenPresent maxSize) (hmax : n ≤ 16383)
    (hne : 0 < n ∨ room headerLen lenPresent maxSize ≠ 0) :
    ((headerLen + n + excess lenPresent n : Nat) : Int) ≤ maxSize := by
  have hsize := size_bounds n
  rw [excess]
  split_ifs with hpresent
  · rcases room_cases headerLen lenPresent maxSize with hr | ⟨hle, hone, hr⟩ | hr
    · omega
    · have hone := hone hpresent
      omega
    · omega
  · rcases room_cases headerLen lenPresent maxSize with hr | hr | hr <;> omega

/-- No more data does. -/
theorem le_room (h : ((headerLen + n + excess lenPresent n : Nat) : Int) ≤ maxSize) :
    (n : Int) ≤ room headerLen lenPresent maxSize := by
  have hsize := size_bounds n
  rw [excess] at h
  rcases room_cases headerLen lenPresent maxSize with hr | hr | hr
  · omega
  · omega
  · rw [if_pos hr.1] at h
    omega

end UQuic.QuicVarint
