/-
# `UQuic.FrameLayout` — what a random layout carries

Whatever the random sources return, a layout that `buildAtWithLimit` accepts carries
exactly the bytes it says it has consumed.

The lengths of the frames are what the argument turns on.  They are split off one by
one, and the length `0` is read as "the rest", so a length may only be `0` when
nothing is left:

    Split len ls      `ls` shares out `len` bytes, and only leaves a frame empty
                      when there is nothing left for it
    Laid e o ls cs    the frames `cs` have these lengths, one after the other from
                      the offset `o`, where `e` is the end of the data

The drawn lengths are a `Split` (`splitLengths_meets`), and so is what the shortened
prefix makes of them (`Split.shorten`).  `Build` works the lowest offset out again
from the shuffled frames and finds the one that was put in (`build_meets`).

## What is proved

`buildAtWithLimit_meets`: no panic, and for a payload that is returned everything in
`Layout`.
-/
import UQuic.QUICFrames

namespace UQuic

open List Except
open Wire (CryptoFrame Frame Reads Consecutive)
open QuicVarint (maxVarInt8)

/-- The program only ends if the data reaches past the offsets that have an encoding. -/
def BuildError.ReturnedUpTo (stop : Nat) (e : BuildError) : Prop :=
  stop ≤ maxVarInt8 → e.Returned

theorem BuildError.Returned.upTo (stop : Nat) (e : BuildError) (h : e.Returned) :
    e.ReturnedUpTo stop :=
  fun _ => h

namespace QUICRandomFrames

/-! ## Sharing out a number of bytes -/

/-- `ls` shares out `len` bytes: a frame is empty only if nothing is left, and takes
more than a byte only if every frame after it can have one. -/
inductive Split : Nat → List Nat → Prop
  | last (len : Nat) : Split len [len]
  | cons {l len : Nat} {ls : List Nat} (le : l ≤ len) (empty : l = 0 → len = 0)
      (spare : l ≤ 1 ∨ ls.length ≤ len - l) (rest : Split (len - l) ls) : Split len (l :: ls)

namespace Split

variable {len : Nat} {ls : List Nat}

theorem sum_eq (h : Split len ls) : ls.sum = len := by
  induction h with
  | last => exact sum_singleton
  | cons le _ _ _ ih =>
    rw [sum_cons, ih]
    exact Nat.add_sub_of_le le

theorem ne_nil (h : Split len ls) : ls ≠ [] := by
  cases h <;> exact cons_ne_nil _ _

/-- With a byte for every frame, no frame is empty. -/
theorem pos (h : Split len ls) : ls.length ≤ len → ∀ l ∈ ls, 1 ≤ l := by
  induction h with
  | last len =>
    intro hlen l hl
    rw [mem_singleton.mp hl]
    exact hlen
  | @cons l len ls le empty spare _ ih =>
    intro hlen l' hl'
    rw [length_cons] at hlen
    rcases mem_cons.mp hl' with rfl | hl'
    · exact Nat.one_le_iff_ne_zero.mpr fun h0 => by
        have := empty h0
        omega
    · exact ih (by omega) l' hl'

end Split

/-- A count drawn from the half-open range, or its lower end if that is empty. -/
def InRange (min max n : Nat) : Prop := (min ≤ n ∧ n < max) ∨ (max ≤ min ∧ n = min)

theorem cryptoSafeRandUint64_meets (draw : Option Nat) (min max : Nat) :
    (cryptoSafeRandUint64 draw min max).Meets (InRange min max) BuildError.Returned := by
  simp only [cryptoSafeRandUint64]
  split_ifs with h
  · exact .inr ⟨h, rfl⟩
  · cases draw with
    | none => exact trivial
    | some r =>
      have := Nat.mod_lt r (show 0 < max - min by omega)
      exact .inl ⟨by omega, by omega⟩

theorem splitLengths_meets (draw : Nat → Option Nat) : ∀ n len,
    (splitLengths draw n len).Meets (fun ls => Split len ls ∧ ls.length = n + 1)
      BuildError.Returned
  | 0, len => ⟨.last len, rfl⟩
  | n + 1, len => by
    refine (cryptoSafeRandUint64_meets (draw n) 1 (subSat len n)).bind ?_
    intro l hl
    refine (splitLengths_meets draw n _).map ?_
    rintro ls ⟨hsplit, hlen⟩
    refine ⟨.cons ?_ ?_ ?_ hsplit, by rw [length_cons, hlen]⟩
    all_goals
      simp only [InRange, subSat] at hl
      split at hl <;> split <;> omega

theorem splitOver_meets (draw : Nat → Option Nat) {n : Nat} (hn : 1 ≤ n) (len : Nat) :
    (splitOver draw n len).Meets (fun ls => Split len ls ∧ ls.length = n) BuildError.Returned := by
  cases n with
  | zero => exact absurd hn (by decide)
  | succ n => exact splitLengths_meets draw n len

/-! ## Frames one after the other -/

/-- The length of a frame, where `0` is the rest. -/
def effective (dataEnd : Nat) (c : QUICFrameCrypto) : Nat :=
  if c.length = 0 then dataEnd - c.offset else c.length

/-- The frames `cs` have the lengths `ls`, one after the other from `offset`. -/
inductive Laid (dataEnd : Nat) : Nat → List Nat → List QUICFrameCrypto → Prop
  | nil {offset : Nat} : Laid dataEnd offset [] []
  | cons {offset : Nat} {ls : List Nat} {c : QUICFrameCrypto} {cs : List QUICFrameCrypto}
      (offset_eq : c.offset = offset) (rest : Laid dataEnd (offset + effective dataEnd c) ls cs) :
      Laid dataEnd offset (effective dataEnd c :: ls) (c :: cs)

variable {dataEnd offset : Nat}

theorem Laid.length_eq {ls : List Nat} {cs : List QUICFrameCrypto}
    (h : Laid dataEnd offset ls cs) : cs.length = ls.length := by
  induction h with
  | nil => rfl
  | cons _ _ ih => rw [length_cons, length_cons, ih]

variable {c : QUICFrameCrypto}

variable {l : Nat}

theorem Laid.of_eq {ls : List Nat}
    {cs : List QUICFrameCrypto} (hoff : c.offset = offset) (hl : effective dataEnd c = l)
    (rest : Laid dataEnd (offset + l) ls cs) : Laid dataEnd offset (l :: ls) (c :: cs) := by
  subst hl
  exact .cons hoff rest

/-- A frame that is empty only if nothing is left has the length it was given. -/
theorem effective_eq {len : Nat} (h : l = 0 → len = 0) :
    effective (offset + len) ⟨offset, l⟩ = l := by
  rw [effective]
  split_ifs with h0
  · rw [h h0]
    exact (Nat.sub_self offset).trans h0.symm
  · rfl

/-- The frames of the drawn lengths have these lengths. -/
theorem laid_cryptoFrames {len : Nat} {ls : List Nat} (h : Split len ls) : ∀ offset,
    Laid (offset + len) offset ls (cryptoFrames offset ls) := by
  induction h with
  | last len =>
    intro offset
    refine .of_eq rfl ?_ .nil
    rw [effective, if_pos rfl]
    exact Nat.add_sub_cancel_left offset len
  | @cons l len ls le empty _ rest ih =>
    intro offset
    have ih := ih (offset + l)
    rw [Nat.add_assoc, Nat.add_sub_of_le le] at ih
    cases ls with
    | nil => exact absurd rfl rest.ne_nil
    | cons l' ls => exact .of_eq rfl (effective_eq empty) ih

/-- What is kept of a frame of `l` bytes when `n` bytes go to it and the `k` frames after it. -/
def keep (l n k : Nat) : Nat := min l (min n (max 1 (n - k)))

theorem prefixFrames_cons (dataEnd n offset : Nat) (c : QUICFrameCrypto)
    (cs : List QUICFrameCrypto) : prefixFrames dataEnd n offset (c :: cs) =
      ⟨offset, keep (effective dataEnd c) n cs.length⟩ ::
        prefixFrames dataEnd (n - keep (effective dataEnd c) n cs.length)
          (offset + keep (effective dataEnd c) n cs.length) cs := rfl

/-- The prefix of `n` bytes: the lengths it leaves share out `n`, and the frames have them. -/
theorem laid_prefixFrames {len : Nat} {ls : List Nat} (h : Split len ls) :
    ∀ {start cs}, Laid dataEnd start ls cs → ∀ {n}, n ≤ len → ∀ offset,
      ∃ ls', Split n ls' ∧ ls'.length = ls.length ∧
        Laid (offset + n) offset ls' (prefixFrames dataEnd n offset cs) ∧
        (prefixFrames dataEnd n offset cs).map (·.length) = ls' := by
  induction h with
  | last len =>
    intro start cs hlaid n hn offset
    cases hlaid with
    | @cons _ _ c cs _ rest =>
      cases rest
      have hkeep : keep (effective dataEnd c) n 0 = n := by
        simp only [keep]
        omega
      rw [prefixFrames_cons, length_nil, hkeep]
      exact ⟨[n], .last n, rfl, .of_eq rfl (effective_eq id) .nil, rfl⟩
  | @cons l len ls le empty spare _ ih =>
    intro start cs hlaid n hn offset
    cases hlaid with
    | @cons _ _ c cs _ rest =>
      obtain ⟨x, hx⟩ : ∃ x, x = keep (effective dataEnd c) n cs.length := ⟨_, rfl⟩
      have hlen := rest.length_eq
      rw [prefixFrames_cons, ← hx]
      simp only [keep] at hx
      -- the bytes that are left after this frame go to the frames that follow
      obtain ⟨ls', hsplit, hlength, hlaid, hmap⟩ :=
        ih rest (show n - x ≤ len - effective dataEnd c by omega) (offset + x)
      have hxn : x = 0 → n = 0 := by omega
      rw [Nat.add_assoc, Nat.add_sub_of_le (show x ≤ n by omega)] at hlaid
      exact ⟨x :: ls', .cons (by omega) hxn (by omega) hsplit,
        by rw [length_cons, length_cons, hlength],
        .of_eq rfl (effective_eq hxn) hlaid, congrArg (x :: ·) hmap⟩

theorem Laid.map_effective {ls : List Nat} {cs : List QUICFrameCrypto}
    (h : Laid dataEnd offset ls cs) : cs.map (effective dataEnd) = ls := by
  induction h with
  | nil => rfl
  | cons _ _ ih => rw [map_cons, ih]

/-- Frames whose lengths add up to the end of the data stay inside it. -/
theorem Laid.inside {ls : List Nat} {cs : List QUICFrameCrypto}
    (h : Laid dataEnd offset ls cs) (hend : offset + ls.sum = dataEnd) :
    ∀ c ∈ cs, offset ≤ c.offset ∧ c.offset + effective dataEnd c ≤ dataEnd := by
  induction h with
  | nil => exact fun c hc => nomatch hc
  | @cons offset ls c cs hoff _ ih =>
    rw [sum_cons] at hend
    intro c' hc'
    rcases mem_cons.mp hc' with rfl | hc'
    · exact ⟨hoff.ge, by omega⟩
    · obtain ⟨h1, h2⟩ := ih (by omega) c' hc'
      exact ⟨by omega, h2⟩

/-! ## What `Build` writes -/

/-- The CRYPTO frame on the wire. -/
def wireFrame (data : List UInt8) (base : Nat) (c : QUICFrameCrypto) : CryptoFrame :=
  ⟨c.offset, (data.drop (c.offset - base)).take (effective (base + data.length) c)⟩

def frameBytes (data : List UInt8) (base : Nat) : QUICFrame → List UInt8
  | .crypto c => (wireFrame data base c).bytes
  | .padding n => List.replicate n 0x0
  | .ping => [0x1]

/-- What the parser makes of the bytes of a frame. -/
def wireFrames (data : List UInt8) (base : Nat) : QUICFrame → List Frame
  | .crypto c => [.crypto (wireFrame data base c)]
  | .padding n => List.replicate n .padding
  | .ping => [.ping]

/-- The CRYPTO frames of the list start at `base` and stay inside the data. -/
structure Fits (data : List UInt8) (base : Nat) (fs : List QUICFrame) : Prop where
  first : ∃ c, .crypto c ∈ fs ∧ c.offset = base
  inside : ∀ c, .crypto c ∈ fs →
    base ≤ c.offset ∧ c.offset + effective (base + data.length) c ≤ base + data.length

theorem foldl_lower {base : Nat} : ∀ (fs : List QUICFrame) (lowest : Nat), base ≤ lowest →
    (∀ c, .crypto c ∈ fs → base ≤ c.offset) →
    (lowest = base ∨ ∃ c, .crypto c ∈ fs ∧ c.offset = base) →
    fs.foldl QUICFrames.lower lowest = base
  | [], _, _, _, h => by
    rcases h with h | ⟨_, hc, _⟩
    · exact h
    · exact nomatch hc
  | f :: fs, lowest, hle, hall, h => by
    have htail := fun c hc => hall c (mem_cons_of_mem f hc)
    rw [foldl_cons]
    cases f with
    | crypto d =>
      have hd := hall d mem_cons_self
      refine foldl_lower fs _ (by simp only [QUICFrames.lower]; split <;> omega) htail ?_
      rcases h with h | ⟨c, hc, hoff⟩
      · left
        simp only [QUICFrames.lower]
        split <;> omega
      · rcases mem_cons.mp hc with hcd | hc
        · cases hcd
          left
          simp only [QUICFrames.lower]
          split <;> omega
        · exact .inr ⟨c, hc, hoff⟩
    | padding n | ping =>
      refine foldl_lower fs _ hle htail (h.imp_right ?_)
      rintro ⟨c, hc, hoff⟩
      exact ⟨c, (mem_cons.mp hc).resolve_left nofun, hoff⟩

section Fits

variable {data : List UInt8} {base : Nat} {fs : List QUICFrame}

theorem Fits.lowestOffset_eq (h : Fits data base fs) (hbase : base ≤ maxVarInt8) :
    QUICFrames.lowestOffset fs = base := by
  have hlt : base < QUICFrames.maxInt := by
    have : maxVarInt8 < QUICFrames.maxInt := by decide
    omega
  have hfold := foldl_lower fs QUICFrames.maxInt hlt.le (fun c hc => (h.inside c hc).1)
    (.inr h.first)
  simp only [QUICFrames.lowestOffset, hfold]
  exact if_neg (Nat.ne_of_lt hlt)

section

variable (h : base ≤ c.offset ∧ c.offset + effective (base + data.length) c ≤ base + data.length)

include h

theorem length_wireFrame :
    (wireFrame data base c).data.length = effective (base + data.length) c := by
  rw [wireFrame, length_take, length_drop]
  omega

theorem encodable_wireFrame
    (hbase : base + data.length ≤ maxVarInt8) : (wireFrame data base c).Encodable := by
  have hlen := length_wireFrame h
  refine ⟨?_, by omega⟩
  show c.offset ≤ maxVarInt8
  omega

theorem frameLength_eq : QUICFrames.frameLength data (c.offset - base) c.length =
      .ok (effective (base + data.length) c) := by
  by_cases h0 : c.length = 0
  · rw [QUICFrames.frameLength, effective, if_neg (not_not.mpr h0), if_neg (by omega), if_pos h0]
    congr 1
    omega
  · rw [QUICFrames.frameLength, effective, if_pos h0, if_neg h0]

/-- A CRYPTO frame is written exactly when it has an encoding. -/
theorem buildCrypto_eq :
    QUICFrames.buildCrypto data base c =
      match (wireFrame data base c).append [] with
      | none => .error .tooLarge
      | some b => .ok b := by
  have hdata : (data.drop (c.offset - base)).takeD (effective (base + data.length) c) 0 =
      (wireFrame data base c).data :=
    takeD_eq_take 0 (by rw [length_drop]; omega)
  have happ : (wireFrame data base c).append [] =
      ((QuicVarint.append [0x6] c.offset).bind
        (QuicVarint.append · (effective (base + data.length) c))).map
          (· ++ (wireFrame data base c).data) := by
    rw [CryptoFrame.append, length_wireFrame h, Option.map_bind]
    rfl
  simp only [QUICFrames.buildCrypto, frameLength_eq h, Except.bind, hdata]
  rw [happ]
  cases (QuicVarint.append [0x6] c.offset).bind
      (QuicVarint.append · (effective (base + data.length) c)) with
  | none => rfl
  | some header => exact if_neg (by omega)

end

theorem Fits.buildFrame_meets (h : Fits data base fs) : ∀ f ∈ fs,
    (QUICFrames.buildFrame data base f).Meets (fun b => b = frameBytes data base f ∧
        ∀ c, f = .crypto c → (wireFrame data base c).Encodable)
      (BuildError.ReturnedUpTo (base + data.length)) := by
  intro f hf
  cases f with
  | padding n | ping => exact ⟨rfl, nofun⟩
  | crypto c =>
    have hc := h.inside c hf
    rw [QUICFrames.buildFrame, buildCrypto_eq hc]
    cases happ : (wireFrame data base c).append [] with
    | none =>
      intro hstop
      have := (CryptoFrame.append_eq_some_iff [] _).mpr ⟨encodable_wireFrame hc hstop, rfl⟩
      rw [happ] at this
      cases this
    | some b =>
      obtain ⟨henc, rfl⟩ := (CryptoFrame.append_eq_some_iff [] b).mp happ
      exact ⟨rfl, fun d hd => by cases hd; exact henc⟩

theorem buildFrames_meets {E : BuildError → Prop} : ∀ (fs : List QUICFrame),
    (∀ f ∈ fs, (QUICFrames.buildFrame data base f).Meets (fun b => b = frameBytes data base f ∧
        ∀ c, f = .crypto c → (wireFrame data base c).Encodable) E) →
    (QUICFrames.buildFrames data base fs).Meets
      (fun payload => payload = fs.flatMap (frameBytes data base) ∧
        ∀ c, .crypto c ∈ fs → (wireFrame data base c).Encodable) E
  | [], _ => ⟨rfl, nofun⟩
  | f :: fs, h => by
    refine (h f mem_cons_self).bind ?_
    rintro b ⟨rfl, hf⟩
    have ih := buildFrames_meets fs fun g hg => h g (mem_cons_of_mem f hg)
    refine ih.map ?_
    rintro payload ⟨rfl, hfs⟩
    refine ⟨rfl, fun c hc => ?_⟩
    rcases mem_cons.mp hc with hc | hc
    · exact hf c hc.symm
    · exact hfs c hc

/-- `Build` writes the frames one after the other, in whatever order they come. -/
theorem Fits.build_meets (h : Fits data base fs) (hbase : base ≤ maxVarInt8) :
    (QUICFrames.build data fs).Meets (fun payload => payload = fs.flatMap (frameBytes data base) ∧
        ∀ c, .crypto c ∈ fs → (wireFrame data base c).Encodable)
      (BuildError.ReturnedUpTo (base + data.length)) := by
  have hne : fs.isEmpty = false := by
    obtain ⟨c, hc, -⟩ := h.first
    cases fs with
    | nil => exact nomatch hc
    | cons f fs => rfl
  simp only [QUICFrames.build, hne, Bool.false_eq_true, if_false, h.lowestOffset_eq hbase]
  exact buildFrames_meets fs h.buildFrame_meets

theorem reads_replicate : ∀ n, Reads (List.replicate n .padding) (List.replicate n 0x0)
  | 0 => .nil
  | n + 1 => Reads.append .padding (reads_replicate n)

/-- The payload parses as the frames that were laid out. -/
theorem reads_frames (henc : ∀ c, .crypto c ∈ fs → (wireFrame data base c).Encodable) :
    Reads (fs.flatMap (wireFrames data base)) (fs.flatMap (frameBytes data base)) := by
  refine Reads.flatMap _ _ fs fun f hf => ?_
  cases f with
  | padding n => exact reads_replicate n
  | ping => exact .ping
  | crypto c => exact .crypto (henc c hf)

theorem Fits.perm {gs : List QUICFrame} (h : Fits data base fs) (hp : gs.Perm fs) :
    Fits data base gs where
  first := by
    obtain ⟨c, hc, hoff⟩ := h.first
    exact ⟨c, hp.mem_iff.mpr hc, hoff⟩
  inside c hc := h.inside c (hp.mem_iff.mp hc)

end Fits

/-! ## The CRYPTO frames in the order of their offsets -/

theorem Laid.consecutive {data : List UInt8} {base : Nat} {ls : List Nat}
    {cs : List QUICFrameCrypto} (h : Laid (base + data.length) offset ls cs) :
    base ≤ offset → offset + ls.sum = base + data.length →
    Consecutive offset (cs.map (wireFrame data base)) ∧
      (cs.map (wireFrame data base)).flatMap (·.data) = data.drop (offset - base) := by
  induction h with
  | @nil offset =>
    intro hle hend
    refine ⟨trivial, ?_⟩
    rw [sum_nil] at hend
    exact (drop_eq_nil_of_le (by omega)).symm
  | @cons offset ls c cs hoff rest ih =>
    intro hle hend
    rw [sum_cons] at hend
    have hlen : (wireFrame data base c).data.length = effective (base + data.length) c :=
      length_wireFrame ⟨by omega, by omega⟩
    obtain ⟨hcons, hflat⟩ := ih (by omega) (by omega)
    refine ⟨⟨hoff, by rwa [hlen]⟩, ?_⟩
    rw [map_cons, flatMap_cons, hflat]
    simp only [wireFrame, hoff]
    rw [show offset + effective (base + data.length) c - base =
      offset - base + effective (base + data.length) c by omega, ← drop_drop, take_append_drop]

/-! ## Shortening the data to the budget -/

/-- The bytes of the PING and CRYPTO frames. -/
def contentSize (data : List UInt8) (base numPING : Nat) (cs : List QUICFrameCrypto) : Nat :=
  numPING + (cs.map fun c => (wireFrame data base c).bytes.length).sum

theorem length_frameList (data : List UInt8) (base numPING : Nat) (cs : List QUICFrameCrypto) :
    ((frameList numPING cs).flatMap (frameBytes data base)).length =
      contentSize data base numPING cs := by
  simp [frameList, contentSize, flatMap_append, length_flatMap, Function.comp_def, frameBytes]

/-- A way to lay out the first `n` bytes of the data over `k` frames. -/
structure Arranged (n k base : Nat) (cs : List QUICFrameCrypto) : Prop where
  laid : ∃ ls, Split n ls ∧ ls.length = k ∧ Laid (base + n) base ls cs

namespace Arranged

variable {data : List UInt8} {base k : Nat} {cs : List QUICFrameCrypto}

theorem inside (h : Arranged data.length k base cs) : ∀ c ∈ cs, base ≤ c.offset ∧
    c.offset + effective (base + data.length) c ≤ base + data.length := by
  obtain ⟨ls, hsplit, -, hlaid⟩ := h.laid
  exact hlaid.inside (by rw [hsplit.sum_eq])

theorem length_eq {n : Nat} (h : Arranged n k base cs) : cs.length = k := by
  obtain ⟨ls, -, hk, hlaid⟩ := h.laid
  rw [hlaid.length_eq, hk]

/-- Whatever PING and PADDING frames there are, `Build` accepts the frames. -/
theorem fits (h : Arranged data.length k base cs) {fs : List QUICFrame}
    (hfs : ∀ c, .crypto c ∈ fs ↔ c ∈ cs) : Fits data base fs where
  first := by
    obtain ⟨ls, hsplit, -, hlaid⟩ := h.laid
    cases hlaid with
    | nil => exact absurd rfl hsplit.ne_nil
    | @cons _ _ c cs hoff _ => exact ⟨c, (hfs c).mpr mem_cons_self, hoff⟩
  inside c hc := h.inside c ((hfs c).mp hc)

theorem nonempty (h : Arranged data.length k base cs) (hk : k ≤ data.length) :
    ∀ c ∈ cs, (wireFrame data base c).data ≠ [] := by
  intro c hc
  obtain ⟨ls, hsplit, hls, hlaid⟩ := h.laid
  have hpos := hsplit.pos (hls ▸ hk) (effective (base + data.length) c)
    (hlaid.map_effective ▸ mem_map_of_mem hc)
  rw [← length_wireFrame (h.inside c hc)] at hpos
  exact ne_nil_of_length_pos hpos

end Arranged

theorem mem_frameList {numPING : Nat} {cs : List QUICFrameCrypto} (c : QUICFrameCrypto) :
    .crypto c ∈ frameList numPING cs ↔ c ∈ cs := by
  simp [frameList]

theorem framesSize_meets {data : List UInt8} {base : Nat} :
    ∀ (cs : List QUICFrameCrypto) (size : Nat),
    (∀ c ∈ cs, base ≤ c.offset ∧ c.offset + effective (base + data.length) c ≤ base + data.length) →
    (∀ c ∈ cs, c.length = effective (base + data.length) c) →
    (framesSize size cs).Meets
      (· = size + (cs.map fun c => (wireFrame data base c).bytes.length).sum)
      (BuildError.ReturnedUpTo (base + data.length))
  | [], size, _, _ => rfl
  | c :: cs, size, hin, heffective => by
    have hc := hin c mem_cons_self
    have hlen := length_wireFrame hc
    have hl := heffective c mem_cons_self
    have ih := framesSize_meets cs (size + (wireFrame data base c).bytes.length)
      (fun d hd => hin d (mem_cons_of_mem c hd))
      (fun d hd => heffective d (mem_cons_of_mem c hd))
    rw [CryptoFrame.length_bytes, hlen, ← hl] at ih
    rw [framesSize, QuicVarint.len, QuicVarint.len, map_cons, sum_cons,
      CryptoFrame.length_bytes, hlen, ← hl, ← Nat.add_assoc size]
    by_cases h1 : c.offset ≤ maxVarInt8
    · by_cases h2 : c.length ≤ maxVarInt8
      · rw [if_pos h1, if_pos h2]
        exact ih
      · rw [if_pos h1, if_neg h2]
        exact fun hstop => absurd hstop (by omega)
    · rw [if_neg h1]
      exact fun hstop => absurd hstop (by omega)

variable {maxSize : Nat}

/-- The search ends with a prefix that fits. -/
theorem search_meets {prefixSize : Nat → Except BuildError Nat} {size : Nat → Nat}
    {E : BuildError → Prop} (low high : Nat) : (∀ n ≤ high, (prefixSize n).Meets (· = size n) E) →
    low ≤ high → size low ≤ maxSize →
    (search prefixSize maxSize low high).Meets (fun n => n ≤ high ∧ size n ≤ maxSize) E := by
  fun_induction search prefixSize maxSize low high with
  | case1 low high hlt middle ih1 ih2 =>
    intro hsize hle hlow
    have hmid : middle ≤ high := by omega
    refine (hsize middle hmid).bind ?_
    rintro _ rfl
    split_ifs with hfits
    · exact ih1 hsize hmid hfits
    · have ih := ih2 (fun n hn => hsize n (by omega)) (by omega) hlow
      exact ih.mono fun n hn => ⟨by omega, hn.2⟩
  | case2 low high hlt => exact fun _ hle hlow => ⟨hle, hlow⟩

/-- What the budget leaves: an arrangement of a prefix of the data that fits. -/
structure Fitted.Within (cryptoData : List UInt8) (base maxSize numPING k : Nat) (f : Fitted) :
    Prop where
  taken : ∃ n ≤ cryptoData.length, f.data = cryptoData.take n
  arranged : Arranged f.data.length k base f.frames
  size_eq : f.size = contentSize f.data base numPING f.frames
  size_le : f.size ≤ maxSize

section Budget

variable {cryptoData : List UInt8} {base k : Nat} {cs : List QUICFrameCrypto}

variable (h : Arranged cryptoData.length k base cs)

include h

/-- Every prefix can be arranged, and `prefixSize` is the size it takes. -/
theorem prefix_arranged (numPING : Nat) {n : Nat} (hn : n ≤ cryptoData.length) :
    let frames := prefixFrames (base + cryptoData.length) n base cs
    Arranged (cryptoData.take n).length k base frames ∧
      (framesSize numPING frames).Meets
        (· = contentSize (cryptoData.take n) base numPING frames)
        (BuildError.ReturnedUpTo (base + cryptoData.length)) := by
  obtain ⟨ls, hsplit, hls, hlaid⟩ := h.laid
  obtain ⟨ls', hsplit', hls', hlaid', hmap⟩ := laid_prefixFrames hsplit hlaid hn base
  have hlen : (cryptoData.take n).length = n := by
    rw [length_take]
    exact Nat.min_eq_left hn
  have harr : Arranged (cryptoData.take n).length k base
      (prefixFrames (base + cryptoData.length) n base cs) := by
    rw [hlen]
    exact ⟨ls', hsplit', hls'.trans hls, hlaid'⟩
  refine ⟨harr, ?_⟩
  have hsize := framesSize_meets _ numPING harr.inside fun c hc => ?_
  · exact hsize.mono_error fun e he hstop => he (by omega)
  · have heffective := hmap.trans hlaid'.map_effective.symm
    rw [hlen]
    exact map_inj_left.mp heffective c hc

theorem shorten_meets (hbase : base ≤ maxVarInt8) (maxSize numPING : Nat) :
    (shorten cryptoData base maxSize numPING cs).Meets
      (Fitted.Within cryptoData base maxSize numPING k)
      (BuildError.ReturnedUpTo (base + cryptoData.length)) := by
  have hsize := fun n (hn : n ≤ cryptoData.length) => (prefix_arranged h numPING hn).2
  have hlow : min 1 cryptoData.length ≤ cryptoData.length := Nat.min_le_right _ _
  refine (hsize _ hlow).bind ?_
  rintro _ rfl
  dsimp only
  split_ifs with hfits
  · exact fun _ => trivial
  · refine (search_meets _ _ hsize hlow (Nat.le_of_not_lt hfits)).bind ?_
    rintro n ⟨hle, hfits⟩
    obtain ⟨harr, -⟩ := prefix_arranged h numPING hle
    have hlen : (cryptoData.take n).length ≤ cryptoData.length := length_take_le' n cryptoData
    have hfits' : Fits (cryptoData.take n) base
        (frameList numPING (prefixFrames (base + cryptoData.length) n base cs)) :=
      harr.fits mem_frameList
    have hbuild := hfits'.build_meets hbase
    refine (hbuild.mono_error fun e he hstop => he (by omega)).map ?_
    rintro _ ⟨rfl, -⟩
    exact ⟨⟨n, hle, rfl⟩, harr, length_frameList _ _ _ _, by
      simp only [length_frameList]
      exact hfits⟩

theorem fit_meets (hbase : base ≤ maxVarInt8) (maxSize numPING : Nat) :
    (fit cryptoData base maxSize numPING cs).Meets (Fitted.Within cryptoData base maxSize numPING k)
      (BuildError.ReturnedUpTo (base + cryptoData.length)) := by
  refine ((h.fits mem_frameList).build_meets hbase).bind ?_
  rintro _ ⟨rfl, -⟩
  split_ifs with hfits
  · exact shorten_meets h hbase maxSize numPING
  · exact ⟨⟨cryptoData.length, le_rfl, (take_length).symm⟩, h,
      length_frameList _ _ _ _, Nat.le_of_not_lt hfits⟩

end Budget

/-! ## Padding and shuffling -/

variable {q : QUICRandomFrames}

theorem checkBounds_ok (h : q.checkBounds = .ok ()) :
    1 ≤ q.minCRYPTO.toNat ∧ (q.length ≠ 0 → 1 ≤ q.minPADDING.toNat) := by
  simp only [checkBounds] at h
  split at h
  · cases h
  · split at h
    · cases h
    · split at h
      · cases h
      · split at h
        · cases h
        · rename_i hcrypto _ hpadding
          refine ⟨Nat.le_of_not_lt hcrypto, fun hlen => Nat.le_of_not_lt fun hlt => ?_⟩
          exact hpadding ⟨hlt, hlen⟩

/-- The PADDING frames fill the payload up to the configured length. -/
theorem paddingFrames_meets (h : q.checkBounds = .ok ()) (choices : Choices) (maxSize size : Nat) :
    (paddingFrames q choices maxSize size).Meets (fun fs => ∃ ls : List Nat, fs = ls.map .padding ∧
        ls.sum = min q.length.toNat maxSize - size) BuildError.Returned := by
  simp only [paddingFrames]
  split_ifs with h0
  · exact ⟨[], rfl, h0.symm⟩
  · have hlen : q.length ≠ 0 := by
      rintro hq
      rw [hq] at h0
      exact h0 (by simp)
    refine (cryptoSafeRandUint64_meets _ _ _).bind fun n hn => ?_
    have hmin := (checkBounds_ok h).2 hlen
    have hpos : 1 ≤ n := by
      rcases hn with ⟨hle, -⟩ | ⟨-, rfl⟩ <;> omega
    refine (splitOver_meets _ hpos _).map ?_
    rintro ls ⟨hsplit, -⟩
    exact ⟨ls, rfl, hsplit.sum_eq⟩

theorem swapAt_perm {α : Type} (l : List α) (i j : Nat) : (swapAt l i j).Perm l := by
  rw [swapAt.eq_def]
  split
  · rename_i a b ha hb
    obtain ⟨hi, rfl⟩ := List.getElem?_eq_some_iff.mp ha
    obtain ⟨hj, rfl⟩ := List.getElem?_eq_some_iff.mp hb
    exact set_set_perm hi hj
  · exact .refl l

theorem shuffle_perm {α : Type} (swap : Nat → Nat) : ∀ (i : Nat) (l : List α),
    (shuffle swap i l).Perm l
  | 0, l => .refl l
  | i + 1, l => (shuffle_perm swap i _).trans (swapAt_perm l _ _)

/-! ## The layout -/

def frameSize : Frame → Nat
  | .padding => 0
  | .ping => 1
  | .ack _ => 0
  | .crypto f => f.bytes.length

/-- `payload` lays out `data`, which starts at `base`, as the configuration asks for. -/
structure Layout (q : QUICRandomFrames) (data : List UInt8) (base maxSize : Nat)
    (payload : List UInt8) (frames : List Frame) : Prop where
  /-- The payload parses as these frames. -/
  parses : Frame.parseAll payload = some frames
  kinds : ∀ f ∈ frames, f = .padding ∨ f = .ping ∨ ∃ c, f = .crypto c
  size_le : payload.length ≤ maxSize
  /-- The CRYPTO frames partition the data. -/
  partition : ∃ cs : List CryptoFrame, cs.Perm (frames.filterMap Frame.crypto?) ∧
    Consecutive base cs ∧ cs.flatMap (·.data) = data
  pings : InRange q.minPING.toNat q.maxPING.toNat (frames.count .ping)
  cryptos : InRange q.minCRYPTO.toNat q.maxCRYPTO.toNat (frames.filterMap Frame.crypto?).length
  nonempty : (frames.filterMap Frame.crypto?).length ≤ data.length →
    ∀ f ∈ frames.filterMap Frame.crypto?, f.data ≠ []
  padded : (frames.map frameSize).sum < min q.length.toNat maxSize →
    payload.length = min q.length.toNat maxSize

/-- The frames of a layout before they are shuffled, as the parser sees them. -/
def laidFrames (data : List UInt8) (base numPING : Nat) (cs : List QUICFrameCrypto)
    (numPADDING : Nat) : List Frame :=
  List.replicate numPING .ping ++ cs.map (fun c => .crypto (wireFrame data base c)) ++
    List.replicate numPADDING .padding

theorem flatMap_padding : ∀ ls : List Nat,
    ls.flatMap (fun n => List.replicate n Frame.padding) = List.replicate ls.sum .padding
  | [] => rfl
  | n :: ls => by
    rw [flatMap_cons, sum_cons, flatMap_padding ls, replicate_append_replicate]

theorem flatMap_wireFrames (data : List UInt8) (base numPING : Nat) (cs : List QUICFrameCrypto)
    (ls : List Nat) :
    (frameList numPING cs ++ ls.map QUICFrame.padding).flatMap (wireFrames data base) =
      laidFrames data base numPING cs ls.sum := by
  have hping : (List.replicate numPING QUICFrame.ping).flatMap (wireFrames data base) =
      List.replicate numPING .ping := by
    simp [flatMap_replicate, wireFrames]
  rw [frameList, flatMap_append, flatMap_append, flatMap_map, flatMap_map, hping]
  simp only [wireFrames, flatMap_padding, laidFrames, map_eq_flatMap]

section Laid

variable {data : List UInt8} {base numPING n : Nat} {cs : List QUICFrameCrypto}

theorem filterMap_laidFrames :
    (laidFrames data base numPING cs n).filterMap Frame.crypto? = cs.map (wireFrame data base) := by
  rw [laidFrames, filterMap_append, filterMap_append, filterMap_map,
    filterMap_replicate_of_none rfl, filterMap_replicate_of_none rfl, append_nil,
    nil_append, ← filterMap_eq_map]
  rfl

theorem count_laidFrames : (laidFrames data base numPING cs n).count .ping = numPING := by
  have hcrypto : (cs.map fun c => Frame.crypto (wireFrame data base c)).count .ping = 0 :=
    count_eq_zero.mpr fun h => by
      obtain ⟨c, -, hc⟩ := mem_map.mp h
      cases hc
  have hpadding : (List.replicate n Frame.padding).count .ping = 0 :=
    count_eq_zero.mpr fun h => nomatch eq_of_mem_replicate h
  rw [laidFrames, count_append, count_append, hcrypto, hpadding, count_replicate_self, Nat.add_zero]

theorem sum_laidFrames : ((laidFrames data base numPING cs n).map frameSize).sum =
    contentSize data base numPING cs := by
  simp [laidFrames, frameSize, contentSize, Function.comp_def]

end Laid

theorem length_payload (data : List UInt8) (base numPING : Nat) (cs : List QUICFrameCrypto)
    (ls : List Nat) :
    ((frameList numPING cs ++ ls.map QUICFrame.padding).flatMap (frameBytes data base)).length =
      contentSize data base numPING cs + ls.sum := by
  have hpad : ((ls.map QUICFrame.padding).flatMap (frameBytes data base)).length = ls.sum := by
    simp [length_flatMap, Function.comp_def, frameBytes]
  rw [flatMap_append, length_append, length_frameList, hpad]

/-- Any order of the frames of an arrangement is a layout of the data. -/
theorem layout_of_perm {data : List UInt8} {base numPING k : Nat}
    {cs : List QUICFrameCrypto} {ls : List Nat} {fs : List QUICFrame}
    (harr : Arranged data.length k base cs) (hbase : base ≤ maxVarInt8)
    (hsize : contentSize data base numPING cs ≤ maxSize)
    (hpad : ls.sum = min q.length.toNat maxSize - contentSize data base numPING cs)
    (hping : InRange q.minPING.toNat q.maxPING.toNat numPING)
    (hcrypto : InRange q.minCRYPTO.toNat q.maxCRYPTO.toNat k)
    (hperm : fs.Perm (frameList numPING cs ++ ls.map .padding)) : (QUICFrames.build data fs).Meets
      (fun payload => ∃ frames, Layout q data base maxSize payload frames ∧ Reads frames payload)
      (BuildError.ReturnedUpTo (base + data.length)) := by
  have hmem : ∀ c, .crypto c ∈ frameList numPING cs ++ ls.map .padding ↔ c ∈ cs := fun c => by
    simp [frameList]
  have hfits := (harr.fits hmem).perm hperm
  have hframes : (fs.flatMap (wireFrames data base)).Perm
      (laidFrames data base numPING cs ls.sum) := by
    rw [← flatMap_wireFrames]
    exact hperm.flatMap_right _
  have hcryptos := hframes.filterMap Frame.crypto?
  rw [filterMap_laidFrames] at hcryptos
  have hlen : (fs.flatMap (frameBytes data base)).length =
      contentSize data base numPING cs + ls.sum := by
    rw [(hperm.flatMap_right _).length_eq, length_payload]
  obtain ⟨ls', hsplit, -, hlaid⟩ := harr.laid
  obtain ⟨hcons, hdata⟩ := hlaid.consecutive le_rfl (by rw [hsplit.sum_eq])
  have hk : ((fs.flatMap (wireFrames data base)).filterMap Frame.crypto?).length = k := by
    rw [hcryptos.length_eq, length_map, harr.length_eq]
  refine (hfits.build_meets hbase).mono ?_
  rintro payload ⟨rfl, henc⟩
  have hreads := reads_frames henc
  refine ⟨_, ?_, hreads⟩
  exact {
    parses := hreads.parseAll_eq
    kinds := fun f hf => by
      have hf := hframes.mem_iff.mp hf
      rcases mem_append.mp hf with hf | hf
      · rcases mem_append.mp hf with hf | hf
        · exact .inr (.inl (eq_of_mem_replicate hf))
        · obtain ⟨c, -, rfl⟩ := mem_map.mp hf
          exact .inr (.inr ⟨_, rfl⟩)
      · exact .inl (eq_of_mem_replicate hf)
    size_le := by
      rw [hlen]
      omega
    partition := by
      rw [Nat.sub_self, drop_zero] at hdata
      exact ⟨_, hcryptos.symm, hcons, hdata⟩
    pings := by
      rw [hframes.count_eq, count_laidFrames]
      exact hping
    cryptos := hk ▸ hcrypto
    nonempty := fun hle f hf => by
      obtain ⟨c, hc, rfl⟩ := mem_map.mp (hcryptos.mem_iff.mp hf)
      exact harr.nonempty (hk ▸ hle) c hc
    padded := fun hlt => by
      rw [(hframes.map frameSize).sum_nat, sum_laidFrames] at hlt
      rw [hlen]
      omega }

/-- A layout of the bytes that are said to be consumed, and no panic if their offsets have an
encoding. -/
theorem buildAtWithLimit_meets (hq : q.checkBounds = .ok ())
    (choices : Choices) (cryptoData : List UInt8) {base : Nat} (hbase : base ≤ maxVarInt8)
    (maxSize : Nat) : (q.buildAtWithLimit choices cryptoData base maxSize).Meets
      (fun r => r.2 ≤ cryptoData.length ∧ ∃ frames,
        Layout q (cryptoData.take r.2) base maxSize r.1 frames ∧ Reads frames r.1)
      (BuildError.ReturnedUpTo (base + cryptoData.length)) := by
  have herr := BuildError.Returned.upTo (base + cryptoData.length)
  simp only [buildAtWithLimit]
  rw [hq]
  simp only [Except.bind]
  refine ((cryptoSafeRandUint64_meets _ _ _).mono_error herr).bind fun numPING hping => ?_
  refine ((cryptoSafeRandUint64_meets _ _ _).mono_error herr).bind fun k hk => ?_
  have hpos : 1 ≤ k := by
    have := (checkBounds_ok hq).1
    rcases hk with ⟨hle, -⟩ | ⟨-, rfl⟩ <;> omega
  refine ((splitOver_meets _ hpos _).mono_error herr).bind ?_
  rintro lens ⟨hsplit, hlens⟩
  have harr : Arranged cryptoData.length k base (cryptoFrames base lens) :=
    ⟨lens, hsplit, hlens, laid_cryptoFrames hsplit base⟩
  refine (fit_meets harr hbase maxSize numPING).bind fun fitted hf => ?_
  refine ((paddingFrames_meets hq choices maxSize _).mono_error herr).bind ?_
  rintro _ ⟨ls, rfl, hls⟩
  obtain ⟨n, hn, htake⟩ := hf.taken
  have hlen : fitted.data.length = n := by
    rw [htake, length_take]
    exact Nat.min_eq_left hn
  have hperm := shuffle_perm choices.swap
    ((frameList numPING fitted.frames ++ ls.map QUICFrame.padding).length - 1)
    (frameList numPING fitted.frames ++ ls.map .padding)
  have hlayout := layout_of_perm hf.arranged hbase (hf.size_eq ▸ hf.size_le) (hf.size_eq ▸ hls)
    hping hk hperm
  refine (hlayout.mono_error fun e he hstop => he (by omega)).map ?_
  rintro payload hlayout
  show fitted.data.length ≤ cryptoData.length ∧ ∃ frames,
    Layout q (cryptoData.take fitted.data.length) base maxSize payload frames ∧ Reads frames payload
  rw [hlen, ← htake]
  exact ⟨hn, hlayout⟩

/-- **The layout is lossless and exactly sized.**  For every configuration that passes the
checks, all data, every offset, every budget and every outcome of the random choices: no
panic, and a payload that is returned fits the budget, parses as PING, PADDING and CRYPTO
frames, carries exactly the consumed bytes at their offsets in frames of the configured
number, none of them empty if there are enough bytes, and has the configured length if its
contents are shorter. -/
theorem buildAtWithLimit_lossless (q : QUICRandomFrames) (choices : Choices)
    (cryptoData : List UInt8) (baseOffset maxSize : Nat) (hq : q.checkBounds = .ok ())
    (hbase : baseOffset + cryptoData.length < 2 ^ 62) :
    (∀ e, q.buildAtWithLimit choices cryptoData baseOffset maxSize = .error e → e.Returned) ∧
    ∀ payload consumed,
      q.buildAtWithLimit choices cryptoData baseOffset maxSize = .ok (payload, consumed) →
      consumed ≤ cryptoData.length ∧
      ∃ frames, Layout q (cryptoData.take consumed) baseOffset maxSize payload frames := by
  have hle : baseOffset + cryptoData.length ≤ maxVarInt8 := Nat.le_pred_of_lt hbase
  have hlow : baseOffset ≤ maxVarInt8 := by omega
  have h := buildAtWithLimit_meets hq choices cryptoData hlow maxSize
  refine ⟨fun e he => h.of_eq_error he hle, fun payload consumed hr => ?_⟩
  obtain ⟨hconsumed, frames, hlayout, -⟩ := h.of_eq_ok hr
  exact ⟨hconsumed, frames, hlayout⟩

/-- Six bytes over three CRYPTO frames, filled up to the budget and shuffled. -/
theorem buildAtWithLimit_lossless_six :
    let q : QUICRandomFrames := ⟨1, 2, 3, 4, 1, 3, 40⟩
    let choices : Choices := ⟨some 0, some 0, fun n => some n, some 1, fun _ => some 0, fun _ => 0⟩
    let payload : List UInt8 := [0x6, 5, 2, 1, 2, 0x6, 7, 1, 3, 0x6, 8, 3, 4, 5, 6, 0x0, 0x0, 0x1]
    q.checkBounds = .ok () ∧
    q.buildAtWithLimit choices [1, 2, 3, 4, 5, 6] 5 18 = .ok (payload, 6) ∧
    ∃ frames, Layout q [1, 2, 3, 4, 5, 6] 5 18 payload frames := by
  intro q choices payload
  have hrun : q.buildAtWithLimit choices [1, 2, 3, 4, 5, 6] 5 18 = .ok (payload, 6) := by
    decide +kernel
  have h := buildAtWithLimit_lossless q choices [1, 2, 3, 4, 5, 6] 5 18 rfl (by decide)
  exact ⟨rfl, hrun, (h.2 payload 6 hrun).2⟩

end QUICRandomFrames

end UQuic
