/-
# `UQuic.Wire.AckEncoding` — ACK frames on the wire

`Append`, `Length` and `parseAckFrame` of `internal/wire/ack_frame.go`.  An ACK
frame is its type byte and a sequence of varints: the largest packet number, the
delay, the number of further ranges, the first range, a gap and a length for each
further range, and the ECN counts if there are any.  Frames that would take more
than `MaxAckFrameSize` bytes lose their lowest ranges.

`none` is a panic when a frame is written.

## What is proved

A frame that can be sent at all is written with as many bytes as `Length` says,
and the reader gets the ranges that were written back, with nothing else touched
(`Sendable.parse_append`).  `codec` adds that whatever is accepted has ranges that
descend without touching.
-/
import UQuic.Lib.Except
import UQuic.Wire.AckFrame
import UQuic.Wire.ControlFrames

namespace UQuic.Wire

open List Option QuicVarint
open QuicVarint (maxVarInt8)

/-- The conversion of an `int64` to `uint64`. -/
def toUInt64 (x : Int) : Nat := (x % 2 ^ 64).toNat

/-- The conversion of a number to `int64`. -/
def toInt64 (x : Int) : Int := x.bmod (2 ^ 64)

namespace AckFrame

def maxAckFrameSize : Nat := 1000

/-- `encodeAckDelay`, with `protocol.AckDelayExponent` 3. -/
def encodeAckDelay (delay : Int) : Nat := toUInt64 (delay.tdiv (1000 * 2 ^ 3))

/-- `encodeAckRange` of a range that is not the first one: the gap to the range before
it, and its length. -/
def encodeAckRange (prev r : AckRange) : Nat × Nat :=
  (toUInt64 (prev.smallest - r.largest - 2), toUInt64 (r.largest - r.smallest))

/-- `encodeAckRange` of all the ranges that follow `prev`. -/
def encodeAckRanges : AckRange → List AckRange → List (Nat × Nat)
  | _, [] => []
  | prev, r :: rest => encodeAckRange prev r :: encodeAckRanges r rest

/-- The loop of `numEncodableAckRanges`, at range `i`. -/
def countRanges (i length : Nat) : List (Nat × Nat) → Option Nat
  | [] => some i
  | (gap, len) :: rest =>
    (QuicVarint.len gap).bind fun l => (QuicVarint.len len).bind fun m =>
      if maxAckFrameSize < length + (l + m) then some (i - 1)
      else countRanges (i + 1) (length + (l + m)) rest

def numEncodableAckRanges (f : AckFrame) : Option Nat :=
  match f.ackRanges with
  | [] => none
  | first :: rest =>
    (QuicVarint.len (toUInt64 first.largest)).bind fun l =>
      (QuicVarint.len (encodeAckDelay f.delayTime)).bind fun m =>
        countRanges 1 (1 + l + m + 2) (encodeAckRanges first rest)

def hasECN (f : AckFrame) : Bool := 0 < f.ect0 || 0 < f.ect1 || 0 < f.ecnce

/-- The numbers of the frame after its type, in the order they are written. -/
def fields (f : AckFrame) : Option (List Nat) :=
  match f.ackRanges with
  | [] => none
  | first :: rest =>
    f.numEncodableAckRanges.map fun numRanges : Nat =>
      [toUInt64 first.largest, encodeAckDelay f.delayTime, toUInt64 (numRanges - 1),
        toUInt64 (first.largest - first.smallest)] ++
      ((encodeAckRanges first rest).take (numRanges - 1)).flatMap (fun p => [p.1, p.2]) ++
      if f.hasECN then [f.ect0, f.ect1, f.ecnce] else []

def append (b : List UInt8) (f : AckFrame) : Option (List UInt8) :=
  f.fields.bind fun is => is.foldlM QuicVarint.append (b ++ [if f.hasECN then 0x3 else 0x2])

def length (f : AckFrame) : Option Nat :=
  f.fields.bind fun is => is.foldlM (fun n i => (QuicVarint.len i).map (n + ·)) 1

/-- `protocol.AckDelayExponent` and `protocol.DefaultAckDelayExponent`. -/
def ackDelayExponent : Nat := 3

/-- The delay that the exponent scales; an overflow gives the largest duration. -/
def scaledDelay (exponent delay : Nat) : Int :=
  let delayTime := toInt64 (toInt64 (delay * 2 ^ exponent) * 1000)
  if delayTime < 0 then 2 ^ 63 - 1 else delayTime

/-- The loop of `parseAckFrame` over the ranges after the first one. -/
def rangesField : Nat → Int → FrameReader (List AckRange)
  | 0, _ => pure []
  | n + 1, smallest => do
      let gap ← varint
      Parser.check ((gap : Int) + 2 ≤ smallest) .invalidAckRanges
      let largest := smallest - gap - 2
      let ackBlock ← varint
      Parser.check ((ackBlock : Int) ≤ largest) .invalidAckRanges
      let rs ← rangesField n (largest - ackBlock)
      return ⟨largest - ackBlock, largest⟩ :: rs

/-- The ECN counts at the end of a frame that has them. -/
def ecnField (ecn : Bool) (f : AckFrame) : FrameReader AckFrame :=
  if ecn then do
    let ect0 ← varint
    let ect1 ← varint
    let ecnce ← varint
    return { f with ect0 := ect0, ect1 := ect1, ecnce := ecnce }
  else pure f

/-- `parseAckFrame`. -/
def parse (typ exponent : Nat) : FrameReader AckFrame := do
  let largestAcked ← varint
  let delay ← varint
  let numBlocks ← varint
  let ackBlock ← varint
  Parser.check (ackBlock ≤ largestAcked) .invalidFirstAckRange
  let smallest : Int := largestAcked - ackBlock
  let rs ← rangesField numBlocks smallest
  let f : AckFrame := ⟨⟨smallest, largestAcked⟩ :: rs, scaledDelay exponent delay, 0, 0, 0⟩
  Parser.check (f.validateAckRanges = true) .invalidAckRanges
  ecnField (typ = 0x3) f

/-! ## Frames that can be sent -/

/-- A frame with valid ranges whose numbers all have an encoding, with any delay that is not
negative. -/
structure Sendable (f : AckFrame) : Prop extends Valid f where
  nonneg : ∀ r ∈ f.ackRanges, 0 ≤ r.smallest
  encodable : ∀ r ∈ f.ackRanges, r.largest ≤ maxVarInt8
  delay : 0 ≤ f.delayTime ∧ f.delayTime < 2 ^ 63
  ecn : f.ect0 ≤ maxVarInt8 ∧ f.ect1 ≤ maxVarInt8 ∧ f.ecnce ≤ maxVarInt8

variable {x : Int}

theorem toUInt64_of_nonneg (h : 0 ≤ x) (hx : x ≤ maxVarInt8) : toUInt64 x = x.toNat := by
  rw [toUInt64, Int.emod_eq_of_lt h (hx.trans_lt (by decide))]

theorem toUInt64_le (h : 0 ≤ x) (hx : x ≤ maxVarInt8) : toUInt64 x ≤ maxVarInt8 := by
  rw [toUInt64_of_nonneg h hx]
  omega

variable {d : Int}

theorem tdiv_delay (h : 0 ≤ d) (hd : d < 2 ^ 63) :
    d.tdiv (1000 * 2 ^ 3) = d / 8000 ∧ 0 ≤ d / 8000 ∧ d / 8000 ≤ maxVarInt8 := by
  have hmax : (maxVarInt8 : Int) = 2 ^ 62 - 1 := rfl
  exact ⟨Int.tdiv_eq_ediv_of_nonneg h, by omega, by omega⟩

theorem encodeAckDelay_le (h : 0 ≤ d) (hd : d < 2 ^ 63) : encodeAckDelay d ≤ maxVarInt8 := by
  obtain ⟨hdiv, h0, hle⟩ := tdiv_delay h hd
  rw [encodeAckDelay, hdiv]
  exact toUInt64_le h0 hle

/-- The ranges after `prev`, each below the one before it. -/
structure Below (prev : AckRange) (rs : List AckRange) : Prop where
  ordered : ∀ r ∈ prev :: rs, 0 ≤ r.smallest ∧ r.smallest ≤ r.largest ∧ r.largest ≤ maxVarInt8
  descending : (prev :: rs).Pairwise fun a b => b.largest + 1 < a.smallest

variable {rs : List AckRange} {prev r : AckRange}

theorem Below.tail (h : Below prev (r :: rs)) : Below r rs where
  ordered x hx := h.ordered x (mem_cons_of_mem prev hx)
  descending := (pairwise_cons.mp h.descending).2

/-- The gap to the next range and the length of that range, as numbers that fit. -/
theorem Below.encodeAckRange_eq (h : Below prev (r :: rs)) : encodeAckRange prev r =
      ((prev.smallest - r.largest - 2).toNat, (r.largest - r.smallest).toNat) ∧
    0 ≤ prev.smallest - r.largest - 2 ∧ prev.smallest - r.largest - 2 ≤ maxVarInt8 ∧
    0 ≤ r.largest - r.smallest ∧ r.largest - r.smallest ≤ maxVarInt8 := by
  have hgap : r.largest + 1 < prev.smallest :=
    (pairwise_cons.mp h.descending).1 r mem_cons_self
  obtain ⟨_, hprev, hmax⟩ := h.ordered prev mem_cons_self
  obtain ⟨hr, hle, hrmax⟩ := h.ordered r (mem_cons_of_mem prev mem_cons_self)
  have h1 : 0 ≤ prev.smallest - r.largest - 2 := by omega
  have h2 : prev.smallest - r.largest - 2 ≤ maxVarInt8 := by omega
  have h3 : 0 ≤ r.largest - r.smallest := by omega
  have h4 : r.largest - r.smallest ≤ maxVarInt8 := by omega
  exact ⟨by rw [encodeAckRange, toUInt64_of_nonneg h1 h2, toUInt64_of_nonneg h3 h4], h1, h2, h3, h4⟩

theorem Below.encodable : ∀ {prev : AckRange} {rs : List AckRange}, Below prev rs →
    ∀ p ∈ encodeAckRanges prev rs, p.1 ≤ maxVarInt8 ∧ p.2 ≤ maxVarInt8
  | _, [], _, _, hp => nomatch hp
  | prev, r :: rs, h, p, hp => by
    rcases mem_cons.mp hp with rfl | hp
    · obtain ⟨he, h1, h2, h3, h4⟩ := h.encodeAckRange_eq
      rw [he]
      exact ⟨by omega, by omega⟩
    · exact h.tail.encodable p hp

theorem length_encodeAckRanges : ∀ (prev : AckRange) (rs : List AckRange),
    (encodeAckRanges prev rs).length = rs.length
  | _, [] => rfl
  | _, r :: rs => congrArg (· + 1) (length_encodeAckRanges r rs)

theorem size_le (i : Nat) : QuicVarint.size i ≤ 8 := by
  simp only [QuicVarint.size]
  split
  · decide
  · split
    · decide
    · split <;> decide

/-- At least one range is always written, because the first ones are too short to exceed
the limit, and no more than there are bytes. -/
theorem countRanges_ok : ∀ (ps : List (Nat × Nat)) (i length : Nat),
    (∀ p ∈ ps, p.1 ≤ maxVarInt8 ∧ p.2 ≤ maxVarInt8) → 1 ≤ i → (i = 1 → length ≤ 19) →
    ∃ n, countRanges i length ps = some n ∧ 1 ≤ n ∧ n ≤ i + ps.length ∧
      n ≤ i + (maxAckFrameSize - length)
  | [], i, _, _, hi, _ => ⟨i, rfl, hi, le_rfl, Nat.le_add_right i _⟩
  | (gap, len) :: ps, i, length, h, hi, hl => by
    obtain ⟨hg, hn⟩ := h _ mem_cons_self
    rw [countRanges, len_eq hg, bind_some, len_eq hn, bind_some]
    have hs := size_le gap
    have hm := size_le len
    split_ifs with hbig
    · have hone : i ≠ 1 := by
        intro h1
        have := hl h1
        simp only [maxAckFrameSize] at hbig
        omega
      exact ⟨i - 1, rfl, by omega, by simp only [length_cons]; omega, by omega⟩
    · have hbig : length + (QuicVarint.size gap + QuicVarint.size len) ≤ maxAckFrameSize :=
        Nat.le_of_not_lt hbig
      have hpos := size_pos gap
      obtain ⟨n, hn, h1, h2, h3⟩ := countRanges_ok ps (i + 1)
        (length + (QuicVarint.size gap + QuicVarint.size len))
        (fun p hp => h p (mem_cons_of_mem _ hp)) (by omega) (by omega)
      exact ⟨n, hn, h1, by simp only [length_cons]; omega, by omega⟩

def rangesSize (ps : List (Nat × Nat)) : Nat :=
  (ps.map fun p => QuicVarint.size p.1 + QuicVarint.size p.2).sum

theorem rangesSize_le (ps : List (Nat × Nat)) : rangesSize ps ≤ ps.length * 16 := by
  refine (sum_le_card_nsmul _ 16 fun n hn => ?_).trans (by rw [length_map, smul_eq_mul])
  obtain ⟨p, -, rfl⟩ := mem_map.mp hn
  exact Nat.add_le_add (size_le p.1) (size_le p.2)

/-- Ranges that fit are all written. -/
theorem countRanges_all : ∀ (ps : List (Nat × Nat)) (i length : Nat),
    (∀ p ∈ ps, p.1 ≤ maxVarInt8 ∧ p.2 ≤ maxVarInt8) →
    length + rangesSize ps ≤ maxAckFrameSize → countRanges i length ps = some (i + ps.length)
  | [], _, _, _, _ => rfl
  | (gap, len) :: ps, i, length, h, hle => by
    obtain ⟨hg, hn⟩ : gap ≤ maxVarInt8 ∧ len ≤ maxVarInt8 := h _ mem_cons_self
    have hle : length + (QuicVarint.size gap + QuicVarint.size len + rangesSize ps) ≤ _ := hle
    rw [countRanges, len_eq hg, bind_some, len_eq hn, bind_some, if_neg (by omega),
      countRanges_all ps _ _ (fun p hp => h p (mem_cons_of_mem _ hp)) (by omega),
      length_cons, Nat.add_assoc, Nat.add_comm 1]

/-! ## Reading a frame back -/

variable {first : AckRange}

/-- Some of the ranges of a valid frame, the first one among them. -/
theorem Valid.take_succ {f : AckFrame} (h : f.Valid)
    (hf : f.ackRanges = first :: rs) (k : Nat) {ect0 ect1 ecnce : Nat} :
    (AckFrame.mk (first :: rs.take k) d ect0 ect1 ecnce).Valid where
  nonempty := cons_ne_nil _ _
  ordered r hr := by
    have hr : r ∈ (first :: rs).take (k + 1) := hr
    exact h.ordered r (hf ▸ mem_of_mem_take hr)
  descending := by
    have hd : ((first :: rs).take (k + 1)).Pairwise fun a b => b.largest + 1 < a.smallest :=
      (hf ▸ h.descending).sublist (take_sublist _ _)
    exact hd

theorem ecn_eq_zero {f : AckFrame} (h : f.hasECN = false) : f.ect0 = 0 ∧ f.ect1 = 0 ∧
    f.ecnce = 0 := by
  simp only [hasECN, Bool.or_eq_false_iff, decide_eq_false_iff_not] at h
  omega

/-- The delay is read back in units of 8 µs. -/
theorem scaledDelay_encodeAckDelay (h : 0 ≤ d) (hd : d < 2 ^ 63) :
    scaledDelay ackDelayExponent (encodeAckDelay d) = d - d % 8000 := by
  obtain ⟨hdiv, h0, hle⟩ := tdiv_delay h hd
  have hfit : ∀ x : Int, 0 ≤ x → x < 2 ^ 63 → toInt64 x = x := by
    intro x h0 h1
    rw [toInt64, Int.bmod_def, if_pos (by omega)]
    omega
  rw [scaledDelay, ackDelayExponent, encodeAckDelay, hdiv, toUInt64_of_nonneg h0 hle]
  have hnat : (((d / 8000).toNat : Nat) : Int) = d / 8000 := by omega
  simp only [hnat]
  rw [hfit (d / 8000 * 2 ^ 3) (by omega) (by omega), hfit _ (by omega) (by omega),
    if_neg (by omega)]
  omega

namespace Sendable

variable {f : AckFrame} {rest : List AckRange}

theorem below (h : f.Sendable) (hf : f.ackRanges = first :: rest) : Below first rest where
  ordered r hr := ⟨h.nonneg r (hf ▸ hr), h.ordered r (hf ▸ hr), h.encodable r (hf ▸ hr)⟩
  descending := hf ▸ h.descending

/-- What is written of a sendable frame: the first range and `k` more. -/
theorem fields_eq (h : f.Sendable) : ∃ first rest k, f.ackRanges = first :: rest ∧
    f.numEncodableAckRanges = some (k + 1) ∧ k ≤ rest.length ∧ k ≤ maxVarInt8 ∧
    f.fields = some ([first.largest.toNat, encodeAckDelay f.delayTime, k,
      (first.largest - first.smallest).toNat] ++
      ((encodeAckRanges first rest).take k).flatMap (fun p => [p.1, p.2]) ++
      if f.hasECN then [f.ect0, f.ect1, f.ecnce] else []) := by
  cases hf : f.ackRanges with
  | nil => exact absurd hf h.nonempty
  | cons first rest =>
    have hb := h.below hf
    obtain ⟨h0, hle, hmax⟩ := hb.ordered first mem_cons_self
    have hdelay := encodeAckDelay_le h.delay.1 h.delay.2
    have hl := toUInt64_of_nonneg (show 0 ≤ first.largest by omega) hmax
    obtain ⟨n, hn, h1, h2, h3⟩ := countRanges_ok (encodeAckRanges first rest) 1
      (1 + QuicVarint.size (toUInt64 first.largest) +
        QuicVarint.size (encodeAckDelay f.delayTime) + 2) hb.encodable (Nat.le_refl 1) (by
          intro _
          have := size_le (toUInt64 first.largest)
          have := size_le (encodeAckDelay f.delayTime)
          omega)
    have hnum : f.numEncodableAckRanges = some n := by
      simp only [numEncodableAckRanges, hf]
      rw [len_eq (toUInt64_le (by omega) hmax), bind_some, len_eq hdelay, bind_some, hn]
    have hk : n - 1 ≤ maxVarInt8 := by
      have : maxAckFrameSize ≤ maxVarInt8 := by decide
      omega
    have hcount : toUInt64 ((n : Int) - 1) = n - 1 := by
      rw [toUInt64_of_nonneg (by omega) (by omega)]
      omega
    refine ⟨first, rest, n - 1, rfl, by rw [hnum, Nat.sub_add_cancel h1],
      by rw [length_encodeAckRanges] at h2; omega, hk, ?_⟩
    simp only [fields, hf, hnum, map_some, hl, hcount,
      toUInt64_of_nonneg (show 0 ≤ first.largest - first.smallest by omega) (by omega)]

/-- The size that `numEncodableAckRanges` expects of a frame with all its ranges. -/
def expectedSize (f : AckFrame) (first : AckRange) (rest : List AckRange) : Nat :=
  1 + QuicVarint.size (toUInt64 first.largest) + QuicVarint.size (encodeAckDelay f.delayTime) + 2 +
    rangesSize (encodeAckRanges first rest)

/-- All ranges are written if they fit. -/
theorem numEncodableAckRanges_all (h : f.Sendable) (hf : f.ackRanges = first :: rest)
    (hfits : expectedSize f first rest ≤ maxAckFrameSize) :
    f.numEncodableAckRanges = some f.ackRanges.length := by
  have hb := h.below hf
  obtain ⟨h0, hord, hmax⟩ := hb.ordered first mem_cons_self
  simp only [numEncodableAckRanges, hf]
  rw [len_eq (toUInt64_le (by omega) hmax), bind_some,
    len_eq (encodeAckDelay_le h.delay.1 h.delay.2), bind_some,
    countRanges_all _ _ _ hb.encodable hfits, length_encodeAckRanges, length_cons, Nat.add_comm]

/-- As many ranges as the received packet history keeps are all written. -/
theorem numEncodableAckRanges_eq (h : f.Sendable) (hle : f.ackRanges.length ≤ maxNumAckRanges) :
    f.numEncodableAckRanges = some f.ackRanges.length := by
  cases hf : f.ackRanges with
  | nil => exact absurd hf h.nonempty
  | cons first rest =>
    have h1 := size_le (toUInt64 first.largest)
    have h2 := size_le (encodeAckDelay f.delayTime)
    have h3 := rangesSize_le (encodeAckRanges first rest)
    rw [length_encodeAckRanges] at h3
    rw [hf, length_cons, maxNumAckRanges] at hle
    rw [← hf]
    refine h.numEncodableAckRanges_all hf ?_
    rw [expectedSize, maxAckFrameSize]
    omega

/-- The bytes of a sendable frame: as many as `Length` says. -/
theorem append_eq (h : f.Sendable) : ∃ first rest k, f.ackRanges = first :: rest ∧
    f.numEncodableAckRanges = some (k + 1) ∧ k ≤ rest.length ∧ k ≤ maxVarInt8 ∧
    let bytes := (if f.hasECN then 0x3 else 0x2) :: (
      QuicVarint.encode first.largest.toNat ++ (QuicVarint.encode (encodeAckDelay f.delayTime) ++
      (QuicVarint.encode k ++ (QuicVarint.encode (first.largest - first.smallest).toNat ++
      (((encodeAckRanges first rest).take k).flatMap
        (fun p => QuicVarint.encode p.1 ++ QuicVarint.encode p.2) ++
      if f.hasECN then QuicVarint.encode f.ect0 ++ (QuicVarint.encode f.ect1 ++
        QuicVarint.encode f.ecnce) else [])))))
    (∀ b, f.append b = some (b ++ bytes)) ∧ f.length = some bytes.length := by
  obtain ⟨first, rest, k, hf, hnum, hk, hkmax, hfields⟩ := h.fields_eq
  refine ⟨first, rest, k, hf, hnum, hk, hkmax, ?_⟩
  have hb := h.below hf
  obtain ⟨h0, hle, hmax⟩ := hb.ordered first mem_cons_self
  have hall : ∀ i ∈ [first.largest.toNat, encodeAckDelay f.delayTime, k,
      (first.largest - first.smallest).toNat] ++
      ((encodeAckRanges first rest).take k).flatMap (fun p => [p.1, p.2]) ++
      (if f.hasECN then [f.ect0, f.ect1, f.ecnce] else []), i ≤ maxVarInt8 := by
    intro i hi
    rcases mem_append.mp hi with hi | hi
    · rcases mem_append.mp hi with hi | hi
      · have hdelay := encodeAckDelay_le h.delay.1 h.delay.2
        simp only [mem_cons, not_mem_nil, or_false] at hi
        rcases hi with rfl | rfl | rfl | rfl <;> omega
      · obtain ⟨p, hp, hi⟩ := mem_flatMap.mp hi
        obtain ⟨h1, h2⟩ := hb.encodable p (mem_of_mem_take hp)
        simp only [mem_cons, not_mem_nil, or_false] at hi
        rcases hi with rfl | rfl <;> assumption
    · obtain ⟨h1, h2, h3⟩ := h.ecn
      split at hi
      · simp only [mem_cons, not_mem_nil, or_false] at hi
        rcases hi with rfl | rfl | rfl <;> assumption
      · exact nomatch hi
  refine ⟨fun b => ?_, ?_⟩
  · rw [append, hfields, bind_some, foldlM_append _ _ hall]
    split <;> simp [flatMap_assoc]
  · rw [length, hfields, bind_some, foldlM_len _ _ hall]
    split <;> simp [flatMap_assoc] <;> omega

end Sendable

/-- What the reader gets of a frame of which `k` ranges are written. -/
def readAs (f : AckFrame) (exponent k : Nat) : AckFrame :=
  { f with
    ackRanges := f.ackRanges.take k
    delayTime := scaledDelay exponent (encodeAckDelay f.delayTime) }

/-- With the exponent that this implementation uses, the delay is read in units of 8 µs. -/
theorem readAs_eq {f : AckFrame} (h : f.Sendable) (k : Nat) :
    f.readAs ackDelayExponent k =
      { f with ackRanges := f.ackRanges.take k, delayTime :=
      f.delayTime - f.delayTime % 8000 } := by
  rw [readAs, scaledDelay_encodeAckDelay h.delay.1 h.delay.2]

/-- The ranges after the first one are read back. -/
theorem reads_rangesField : ∀ {prev : AckRange} {rs : List AckRange}, Below prev rs → ∀ {k : Nat},
    k ≤ rs.length → ∀ rest, (rangesField k prev.smallest).Reads (((encodeAckRanges prev rs).take
      k).flatMap fun p => QuicVarint.encode p.1 ++ QuicVarint.encode p.2) (rs.take k) rest
  | _, _, _, 0, _, _ => .pure
  | _, [], _, _ + 1, hk, _ => absurd hk (Nat.not_succ_le_zero _)
  | prev, r :: rs, h, k + 1, hk, rest => by
    obtain ⟨he, h1, h2, h3, h4⟩ := h.encodeAckRange_eq
    obtain ⟨hr, -, -⟩ := h.ordered r (mem_cons_of_mem prev mem_cons_self)
    have hgap : prev.smallest - ((prev.smallest - r.largest - 2).toNat : Int) - 2 = r.largest := by
      omega
    have hblock : r.largest - ((r.largest - r.smallest).toNat : Int) = r.smallest := by omega
    rw [encodeAckRanges, he, take_succ_cons, flatMap_cons, append_assoc]
    refine (reads_varint (by omega)).bind ((Parser.Reads.check (by omega)).bind_nil ?_)
    rw [hgap]
    refine (reads_varint (by omega)).bind ((Parser.Reads.check (by omega)).bind_nil ?_)
    rw [hblock]
    exact (reads_rangesField h.tail (Nat.le_of_succ_le_succ hk) rest).bind_pure

theorem reads_ecnField {f : AckFrame} (h : f.Sendable) (rs : List AckRange) (d : Int)
    (rest : List UInt8) : (ecnField f.hasECN ⟨rs, d, 0, 0, 0⟩).Reads
      (if f.hasECN then QuicVarint.encode f.ect0 ++ (QuicVarint.encode f.ect1 ++
        QuicVarint.encode f.ecnce) else []) ⟨rs, d, f.ect0, f.ect1, f.ecnce⟩ rest := by
  obtain ⟨h0, h1, h2⟩ := h.ecn
  cases hecn : f.hasECN with
  | true => exact (reads_varint h0).bind ((reads_varint h1).bind (reads_varint h2).bind_pure)
  | false =>
    obtain ⟨e0, e1, e2⟩ := ecn_eq_zero hecn
    rw [e0, e1, e2]
    exact .pure

/-- A sendable frame is read back with the ranges that were written. -/
theorem Sendable.parse_append {f : AckFrame} (h : f.Sendable) (exponent : Nat) : ∃ body k,
    f.numEncodableAckRanges = some (k + 1) ∧ k + 1 ≤ f.ackRanges.length ∧
    (∀ b, f.append b = some (b ++ (if f.hasECN then 0x3 else 0x2) :: body)) ∧
    f.length = some (body.length + 1) ∧
    ∀ rest, (parse (if f.hasECN then 0x3 else 0x2) exponent).Reads body (f.readAs exponent (k + 1))
      rest := by
  obtain ⟨first, rs, k, hf, hnum, hk, hkmax, happ, hlen⟩ := h.append_eq
  refine ⟨_, k, hnum, by simpa [hf] using hk, happ, hlen, fun rest => ?_⟩
  have hb := h.below hf
  obtain ⟨h0, hle, hmax⟩ := hb.ordered first mem_cons_self
  have hlargest : ((first.largest.toNat : Nat) : Int) = first.largest := by omega
  have hsmallest : first.largest - ((first.largest - first.smallest).toNat : Int) =
      first.smallest := by omega
  have hval : ∀ d, (AckFrame.mk (first :: rs.take k) d 0 0 0).validateAckRanges = true :=
    fun d => validateAckRanges_iff.mpr (h.toValid.take_succ hf k)
  have hecn : decide ((if f.hasECN then 0x3 else 0x2) = 0x3) = f.hasECN := by
    cases f.hasECN <;> rfl
  have hread : f.readAs exponent (k + 1) = ⟨first :: rs.take k,
      scaledDelay exponent (encodeAckDelay f.delayTime), f.ect0, f.ect1, f.ecnce⟩ := by
    rw [readAs, hf, take_succ_cons]
  rw [hread, parse, hecn]
  refine (reads_varint (by omega)).bind ((reads_varint (encodeAckDelay_le h.delay.1 h.delay.2)).bind
    ((reads_varint hkmax).bind ((reads_varint (by omega)).bind
      ((Parser.Reads.check (by omega)).bind_nil ?_))))
  rw [hlargest, hsmallest]
  exact (reads_rangesField hb hk _).bind
    ((Parser.Reads.check (hval _)).bind_nil (reads_ecnField h _ _ rest))

/-! ## What is accepted -/

theorem returns_varint : Parser.Returns varint fun _ => True := by
  intro b v rest h
  rw [varint, Parser.ofOption] at h
  split at h
  · cases h
  · rename_i hread
    cases h
    obtain ⟨r, -, hr⟩ := map_eq_some_iff.mp hread
    cases hr
    exact ⟨trivial, drop_suffix _ _⟩

/-- Ranges from `0` on, none inverted, that descend without touching. -/
def Descends (rs : List AckRange) : Prop :=
  (∀ r ∈ rs, 0 ≤ r.smallest ∧ r.smallest ≤ r.largest) ∧
    rs.Pairwise fun a b => b.largest + 1 < a.smallest

theorem Descends.cons {r : AckRange} (h : Descends rs) (h0 : 0 ≤ r.smallest)
    (hr : r.smallest ≤ r.largest) (hbelow : ∀ s ∈ rs, s.largest + 1 < r.smallest) :
    Descends (r :: rs) :=
  ⟨forall_mem_cons.mpr ⟨⟨h0, hr⟩, h.1⟩, pairwise_cons.mpr ⟨hbelow, h.2⟩⟩

theorem returns_rangesField : ∀ (n : Nat) (smallest : Int), (rangesField n smallest).Returns
    fun rs => Descends rs ∧ ∀ r ∈ rs, r.largest + 1 < smallest
  | 0, _ => .pure ⟨⟨nofun, .nil⟩, nofun⟩
  | n + 1, smallest => by
    refine returns_varint.bind fun gap _ => .bind .check fun _ hgap =>
      returns_varint.bind fun ackBlock _ => .bind .check fun _ hblock =>
        (returns_rangesField n _).bind fun rs ⟨hrs, hbelow⟩ => .pure ?_
    refine ⟨hrs.cons (by simp only; omega) (by simp only; omega) hbelow, ?_⟩
    refine forall_mem_cons.mpr ⟨by simp only; omega, fun r hr => ?_⟩
    have := hbelow r hr
    omega

/-- Whatever `parseAckFrame` accepts has at least one range, and its ranges descend. -/
theorem returns_parse (typ exponent : Nat) :
    (parse typ exponent).Returns fun f => f.ackRanges ≠ [] ∧ Descends f.ackRanges := by
  refine returns_varint.bind fun largest _ => returns_varint.bind fun delay _ =>
    returns_varint.bind fun n _ => returns_varint.bind fun block _ => .bind .check fun _ hblock =>
      (returns_rangesField n _).bind fun rs ⟨hrs, hbelow⟩ => .bind .check fun _ _ => ?_
  have hall := hrs.cons (r := ⟨(largest : Int) - block, largest⟩) (by simp only; omega)
    (by simp only; omega) hbelow
  rw [ecnField]
  split
  · exact returns_varint.bind fun _ _ => returns_varint.bind fun _ _ =>
      returns_varint.bind fun _ _ => .pure ⟨cons_ne_nil _ _, hall⟩
  · exact .pure ⟨cons_ne_nil _ _, hall⟩


/-- **ACK frames on the wire.**  A frame with valid ranges is written with as many bytes as
`Length` says and read back with the ranges that were written, at least one and all that fit,
and with its delay in units of 8 µs.  What is accepted has ranges that descend without
touching, and nothing beyond the input is read. -/
theorem codec :
    (∀ f : AckFrame, f.validateAckRanges = true →
      (∀ r ∈ f.ackRanges, 0 ≤ r.smallest ∧ r.largest < 2 ^ 62) →
      f.ect0 < 2 ^ 62 ∧ f.ect1 < 2 ^ 62 ∧ f.ecnce < 2 ^ 62 →
      0 ≤ f.delayTime ∧ f.delayTime < 2 ^ 63 →
      ∃ typ body n, typ = (if f.hasECN then 0x3 else 0x2) ∧ f.numEncodableAckRanges = some n ∧
        1 ≤ n ∧ n ≤ f.ackRanges.length ∧ (∀ first rest, f.ackRanges = first :: rest →
          Sendable.expectedSize f first rest ≤ maxAckFrameSize → n = f.ackRanges.length) ∧
        (∀ b, f.append b = some (b ++ .ofNat typ :: body)) ∧ f.length = some (body.length + 1) ∧
        ∀ rest, parse typ ackDelayExponent (body ++ rest) = .ok ({ f with
          ackRanges := f.ackRanges.take n
          delayTime := f.delayTime - f.delayTime % 8000 }, rest)) ∧
    ∀ typ exponent b f rest, parse typ exponent b = .ok (f, rest) →
      (f.ackRanges ≠ [] ∧ Descends f.ackRanges) ∧ rest <:+ b := by
  refine ⟨fun f hvalid hnumbers hecn hdelay => ?_, returns_parse⟩
  have hmax : maxVarInt8 = 2 ^ 62 - 1 := rfl
  have hw : f.Sendable := ⟨validateAckRanges_iff.mp hvalid, fun r hr => (hnumbers r hr).1,
    fun r hr => by have := (hnumbers r hr).2; omega, hdelay, by omega⟩
  obtain ⟨body, k, hnum, hk, happ, hlen, hread⟩ := hw.parse_append ackDelayExponent
  refine ⟨_, body, k + 1, rfl, hnum, Nat.le_add_left _ _, hk, fun first rest hf hfits => ?_, ?_,
    hlen, fun rest => ?_⟩
  · exact Option.some.inj (hnum.symm.trans (hw.numEncodableAckRanges_all hf hfits))
  · intro b
    rw [happ]
    split <;> rfl
  · rw [← readAs_eq hw]
    exact hread rest

end AckFrame

end UQuic.Wire
