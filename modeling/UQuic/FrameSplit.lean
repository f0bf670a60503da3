/-
# `UQuic.FrameSplit` — how much data fits a frame, and what is left of it

`MaxDataLen` of STREAM, CRYPTO and DATAGRAM frames, and `MaybeSplitOffFrame` of the first two.

Splitting copies no more than it has to: the frame that is split off takes over the slice with all
the data and shortens it, and the frame that is left gets another slice for the rest.

    STREAM    the slice of a frame from the pool, with room for `MaxPacketBufferSize` bytes
    CRYPTO    a new slice, as long as the rest

## What is proved

`frames_split_exactly`: `MaxDataLen` is the largest number of bytes that fits, and a frame is split
exactly there, into parts that make up its data and have no byte of memory in common.

## How

What `MaxDataLen` computes is the same for the three frames (`QuicVarint.room`), and so is what
happens to the slices (`splitOff`).  `MaybeSplitOffFrame` elsewhere is a function of values; `Parts`
says that they are what `splitOff` leaves on the heap, where the arrays differ because one of them
is new.
-/
import UQuic.SendSteps
import UQuic.Wire.DatagramFrame

namespace UQuic

open List Option Function QuicVarint
open Wire (StreamFrame CryptoFrame)
open QuicVarint (room excess maxVarInt8)

/-! ## Slices -/

/-- The arrays of bytes, by their address; the addresses from `next` on are free. -/
structure Heap where
  arrays : Nat → List UInt8
  next : Nat

/-- A slice of an array. -/
structure Slice where
  array : Nat
  start : Nat
  len : Nat
  cap : Nat

namespace Slice

variable {h : Heap} {s : Slice} {n cap : Nat}

def bytes (h : Heap) (s : Slice) : List UInt8 := ((h.arrays s.array).drop s.start).take s.len

/-- A slice of an array that was allocated. -/
structure In (h : Heap) (s : Slice) : Prop where
  allocated : s.array < h.next
  len_le : s.len ≤ s.cap
  cap_le : s.start + s.cap ≤ (h.arrays s.array).length

/-- An empty slice of a new array.  A frame from the pool has one that no other frame has, which is
as good. -/
def make (h : Heap) (cap : Nat) : Heap × Slice :=
  (⟨Function.update h.arrays h.next (replicate cap 0), h.next + 1⟩, ⟨h.next, 0, 0, cap⟩)

/-- `copy` to a slice. -/
def copy (h : Heap) (s : Slice) (data : List UInt8) : Heap :=
  { h with arrays := Function.update h.arrays s.array ((h.arrays s.array).take s.start ++
    data.take s.len ++ (h.arrays s.array).drop (s.start + min s.len data.length)) }

/-- What `MaybeSplitOffFrame` does to the slice `s` of a frame: a slice with room for `cap` bytes is
made, the two are swapped, what follows the first `n` bytes is copied to the other one, and both
are cut to their length; `none` is the panic if the other one is too small. -/
def splitOff (h : Heap) (s : Slice) (n cap : Nat) : Option (Heap × Slice × Slice) :=
  let (h, other) := make h cap
  if other.cap < s.len - n then none
  else
    let rest := { other with len := s.len - n }
    some (rest.copy h ((s.bytes h).drop n), { s with len := n }, rest)

theorem length_bytes (hs : s.In h) : (s.bytes h).length = s.len := by
  have hlen := hs.len_le
  have hcap := hs.cap_le
  rw [bytes, length_take, length_drop]
  omega

theorem bytes_make (hs : s.In h) (cap : Nat) : s.bytes (make h cap).1 = s.bytes h := by
  rw [bytes, make]
  dsimp only
  rw [update_of_ne hs.allocated.ne, bytes]

/-- What was copied to a slice is read from it. -/
theorem bytes_copy {data : List UInt8} (hdata : data.length = s.len)
    (hstart : s.start ≤ (h.arrays s.array).length) : s.bytes (s.copy h data) = data := by
  rw [bytes, copy]
  dsimp only
  rw [update_self, take_of_length_le hdata.le, append_assoc,
    drop_left' (length_take_of_le hstart), take_left' hdata]

/-- Both parts can be read, from different arrays, and no other array has changed. -/
theorem splitOff_eq (hs : s.In h) (hn : n ≤ s.len) (hcap : s.len - n ≤ cap) :
    ∃ h' new rest, splitOff h s n cap = some (h', new, rest) ∧
      new.bytes h' = (s.bytes h).take n ∧ rest.bytes h' = (s.bytes h).drop n ∧
      new.array ≠ rest.array ∧ ∀ a < h.next, h'.arrays a = h.arrays a := by
  have hne : s.array ≠ h.next := hs.allocated.ne
  have hlen : ((s.bytes (make h cap).1).drop n).length = s.len - n := by
    rw [bytes_make hs, length_drop, length_bytes hs]
  refine ⟨_, _, _, if_neg (Nat.not_lt.mpr hcap), ?_, ?_, hne, fun a ha => ?_⟩
  · simp only [bytes, copy]
    rw [update_of_ne hne, update_of_ne hne, take_take, Nat.min_eq_left hn]
  · rw [← bytes_make hs cap]
    exact bytes_copy hlen (Nat.zero_le _)
  · simp only [copy]
    rw [update_of_ne ha.ne, update_of_ne ha.ne]

end Slice

/-! ## The largest frame -/

/-- A frame fits with `n` bytes of data and with no more; if it never fits, `n` is 0. -/
def MostData (Fits : List UInt8 → Prop) (n : Nat) : Prop :=
  (∀ data, Fits data → data.length ≤ n) ∧
    ((∀ data, data.length = n → Fits data) ∨ n = 0 ∧ ∀ data, ¬Fits data)

theorem mostData_room {Fits : List UInt8 → Prop} {headerLen : Nat} {lenPresent : Bool}
    {maxSize : Int} (hheader : 0 < headerLen) (hmax : maxSize ≤ 16384) (hfits : ∀ data, Fits data ↔
      ((headerLen + data.length + excess lenPresent data.length : Nat) : Int) ≤ maxSize) :
    ∃ n : Nat, room headerLen lenPresent maxSize = n ∧ MostData Fits n := by
  obtain ⟨n, hn⟩ := Int.eq_ofNat_of_zero_le
    (room_nonneg : 0 ≤ room headerLen lenPresent maxSize)
  have hle : room headerLen lenPresent maxSize ≤ 16383 := room_le hheader hmax
  have hmost : ∀ data, Fits data → data.length ≤ n := fun data hdata => by
    have hroom := le_room ((hfits data).mp hdata)
    omega
  refine ⟨n, hn, hmost, ?_⟩
  by_cases h0 : n = 0
  · subst h0
    by_cases hnil : Fits []
    · exact .inl fun data hdata => length_eq_zero_iff.mp hdata ▸ hnil
    · refine .inr ⟨rfl, fun data hdata => hnil ?_⟩
      rwa [length_eq_zero_iff.mp (Nat.le_zero.mp (hmost data hdata))] at hdata
  · refine .inl fun data hdata => (hfits data).mpr ?_
    exact fits_of_le_room (by omega) (by omega) (.inl (by omega))

/-! ## The parts of a frame -/

/-- The offset and the data of the two parts of a frame that is split after `n` bytes, the rest to a
slice with room for `cap` bytes: as values, and as what is read from the heap afterwards. -/
structure Parts (offset : Nat) (data : List UInt8) (n cap : Nat) (new rest : Nat × List UInt8) :
    Prop where
  length_eq : new.2.length = n
  offset_eq : new.1 = offset ∧ rest.1 = offset + n
  data_eq : data = new.2 ++ rest.2
  nonempty : rest.2 ≠ []
  memory : ∀ (h : Heap) (s : Slice), s.In h → s.bytes h = data →
    ∃ h' t t', s.splitOff h n cap = some (h', t, t') ∧ t.bytes h' = new.2 ∧
      t'.bytes h' = rest.2 ∧ t.array ≠ t'.array ∧ ∀ a < h.next, h'.arrays a = h.arrays a

theorem parts_take_drop {offset n cap : Nat} {data : List UInt8} (hn : n < data.length)
    (hcap : data.length - n ≤ cap) :
    Parts offset data n cap (offset, data.take n) (offset + n, data.drop n) where
  length_eq := length_take_of_le hn.le
  offset_eq := ⟨rfl, rfl⟩
  data_eq := (take_append_drop n data).symm
  nonempty hnil := absurd (drop_eq_nil_iff.mp hnil) (Nat.not_le.mpr hn)
  memory h s hs hdata := by
    have hlen := Slice.length_bytes hs
    rw [hdata] at hlen
    have hsplit := Slice.splitOff_eq hs (by omega) (by omega : s.len - n ≤ cap)
    rwa [hdata] at hsplit

variable {maxSize : Int}

namespace Wire.StreamFrame

variable {f : StreamFrame} {n : Nat}

/-- `MaybeSplitOffFrame` splits off a frame with `n` bytes. -/
def SplitsAt (f : StreamFrame) (maxSize : Int) (n : Nat) : Prop :=
  ∃ new rest, f.maybeSplitOffFrame maxSize = .split new rest ∧ (new.size : Int) ≤ maxSize ∧
    new = { f with data := new.data, fin := false } ∧
    rest = { f with offset := rest.offset, data := rest.data } ∧
    Parts f.offset f.data n maxPacketBufferSize (new.offset, new.data) (rest.offset, rest.data)

theorem splitsAt (hdata : f.data.length ≤ maxPacketBufferSize) (hsize : maxSize < f.size)
    (hn : f.maxDataLen maxSize = n) (hpos : 0 < n) : f.SplitsAt maxSize n := by
  have hlt : n < f.data.length := by
    by_contra hle
    have hfits : (f.size : Int) ≤ maxSize :=
      size_le_of_maxDataLen (.inr (by omega)) hdata (by omega)
    omega
  have hsplit : f.maybeSplitOffFrame maxSize = .split (f.splitAt n).1 (f.splitAt n).2 := by
    rw [maybeSplitOffFrame, if_neg (by omega)]
    dsimp only
    rw [hn, if_neg (by omega), Int.toNat_natCast]
  have hparts : Parts f.offset f.data n maxPacketBufferSize _ _ :=
    parts_take_drop hlt ((Nat.sub_le _ _).trans hdata)
  refine ⟨_, _, hsplit, ?_, rfl, rfl, hparts⟩
  have hlen : (f.splitAt n).1.data.length = n := hparts.length_eq
  have hmax : (f.splitAt n).1.maxDataLen maxSize = n := hn
  exact size_le_of_maxDataLen (.inr (by omega)) (by omega) (by omega)

end Wire.StreamFrame

namespace Wire.CryptoFrame

variable {f : CryptoFrame} {n : Nat}

/-- `MaybeSplitOffFrame` splits off a frame with `n` bytes. -/
def SplitsAt (f : CryptoFrame) (maxSize : Int) (n : Nat) : Prop :=
  ∃ new rest, f.maybeSplitOffFrame maxSize = some (.split new rest) ∧
    (new.bytes.length : Int) ≤ maxSize ∧
    Parts f.offset f.data n (f.data.length - n) (new.offset, new.data) (rest.offset, rest.data)

theorem splitsAt (hlen : f.length = some f.bytes.length)
    (hdata : f.data.length ≤ maxPacketBufferSize) (hsize : maxSize < f.bytes.length)
    (hn : f.maxDataLen maxSize = some (n : Int)) (hpos : 0 < n) : f.SplitsAt maxSize n := by
  have hbuf : f.data.length ≤ 1452 := hdata
  have hroom := maxDataLen_eq_some hn
  have hfits : ∀ k : Nat, (k : Int) ≤ n → k ≤ f.data.length →
      ((f.headerLen + k + excess true k : Nat) : Int) ≤ maxSize := fun k hk hle =>
    fits_of_le_room (hroom ▸ hk) (by omega) (.inr (by omega))
  have hlt : n < f.data.length := by
    by_contra hle
    have hsize' := hfits f.data.length (by omega) le_rfl
    rw [← length_bytes_eq] at hsize'
    omega
  have hparts : Parts f.offset f.data n _ _ _ := parts_take_drop hlt le_rfl
  have hnew : (f.data.take n).length = n := hparts.length_eq
  refine ⟨⟨f.offset, f.data.take n⟩, ⟨f.offset + n, f.data.drop n⟩, ?_, ?_, hparts⟩
  · rw [maybeSplitOffFrame, hlen, bind_some, if_neg (by omega), hn, bind_some, if_neg (by omega),
      if_neg (by omega), Int.toNat_natCast]
  · rw [length_bytes_eq, hnew]
    exact hfits n le_rfl hlt.le

theorem maxDataLen_eq (hoff : f.offset ≤ maxVarInt8) (hmax : maxSize ≤ 16384) :
    f.maxDataLen maxSize = some (room f.headerLen true maxSize) := by
  have hlen : (maxSize - (1 + (QuicVarint.size f.offset : Int) + 1)).toNat ≤ maxVarInt8 :=
    (show _ ≤ 16384 by omega).trans (by decide)
  have hsome : (f.maxDataLen maxSize).isSome := by
    rw [maxDataLen, len_eq hoff, bind_some]
    dsimp only
    rw [len_eq hlen]
    split <;> rfl
  obtain ⟨n, hn⟩ := isSome_iff_exists.mp hsome
  rw [hn, maxDataLen_eq_some hn]

end Wire.CryptoFrame

/-- **Splitting loses nothing and wastes nothing**: `MaxDataLen` is the most that fits, and a frame
that does not fit is split exactly there. -/
theorem frames_split_exactly :
    (∀ (f : StreamFrame) (maxSize : Int), maxSize ≤ 16384 → ∃ n : Nat, f.maxDataLen maxSize = n ∧
      MostData (fun data => ({ f with data := data }.size : Int) ≤ maxSize) n) ∧
    (∀ (f : CryptoFrame) (maxSize : Int), f.offset ≤ maxVarInt8 → maxSize ≤ 16384 →
      ∃ n : Nat, f.maxDataLen maxSize = some (n : Int) ∧
        MostData (fun data => ({ f with data := data }.bytes.length : Int) ≤ maxSize) n) ∧
    (∀ (f : DatagramFrame) (maxSize : Int), maxSize ≤ 16384 → ∃ n : Nat, f.maxDataLen maxSize = n ∧
      MostData (fun data => ({ f with data := data }.size : Int) ≤ maxSize) n) ∧
    (∀ (f : StreamFrame) (maxSize : Int), f.data.length ≤ maxPacketBufferSize →
      ((f.size : Int) ≤ maxSize → f.maybeSplitOffFrame maxSize = .fits) ∧
      (maxSize < f.size → (f.maxDataLen maxSize = 0 → f.maybeSplitOffFrame maxSize = .tooSmall) ∧
        ∀ n : Nat, f.maxDataLen maxSize = n → 0 < n → f.SplitsAt maxSize n)) ∧
    (∀ (f : CryptoFrame) (maxSize : Int), f.data.length ≤ maxPacketBufferSize →
      f.length = some f.bytes.length →
      ((f.bytes.length : Int) ≤ maxSize → f.maybeSplitOffFrame maxSize = some .fits) ∧
      (maxSize < f.bytes.length →
        (f.maxDataLen maxSize = some 0 → f.maybeSplitOffFrame maxSize = some .tooSmall) ∧
        ∀ n : Nat, f.maxDataLen maxSize = some (n : Int) → 0 < n → f.SplitsAt maxSize n)) := by
  refine ⟨fun f maxSize hmax => ?_, fun f maxSize hoff hmax => ?_, fun f maxSize hmax => ?_,
    fun f maxSize hdata => ⟨fun hsize => if_pos hsize, fun hsize => ⟨fun hz => ?_, fun n =>
      StreamFrame.splitsAt hdata hsize⟩⟩, fun f maxSize hdata hlen => ⟨fun hsize => ?_,
        fun hsize => ⟨fun hz => ?_, fun n => CryptoFrame.splitsAt hlen hdata hsize⟩⟩⟩
  · refine mostData_room (by rw [StreamFrame.headerLen]; omega) hmax fun data => ?_
    rw [StreamFrame.size_eq]
    rfl
  · rw [CryptoFrame.maxDataLen_eq hoff hmax]
    have hfits : ∀ data, ((CryptoFrame.mk f.offset data).bytes.length : Int) ≤ maxSize ↔
        ((f.headerLen + data.length + excess true data.length : Nat) : Int) ≤
        maxSize := fun data => by
      rw [CryptoFrame.length_bytes_eq]
      rfl
    obtain ⟨n, hn, hmost⟩ := mostData_room (Nat.succ_pos _) hmax hfits
    exact ⟨n, congrArg some hn, hmost⟩
  · have hroom : f.maxDataLen maxSize =
        room (if f.dataLenPresent then 2 else 1) f.dataLenPresent maxSize := by
      rw [DatagramFrame.maxDataLen]
      cases f.dataLenPresent <;> rfl
    rw [hroom]
    refine mostData_room (by split <;> decide) hmax fun data => ?_
    have hpos := size_pos data.length
    rw [DatagramFrame.size, excess]
    dsimp only
    split <;> omega
  · rw [StreamFrame.maybeSplitOffFrame, if_neg (by omega)]
    exact if_pos hz
  · rw [CryptoFrame.maybeSplitOffFrame, hlen, bind_some, if_pos hsize]
  · rw [CryptoFrame.maybeSplitOffFrame, hlen, bind_some, if_neg (by omega), hz]
    rfl

end UQuic
