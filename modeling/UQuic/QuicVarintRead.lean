/-
# `UQuic.QuicVarintRead` — variable-length integers from a reader

`Read` of `quicvarint/varint.go`, which takes a number byte by byte from an
`io.ByteReader`.  The error of a byte that cannot be read is passed on, also after the
first byte.

## What is proved

On any reader that delivers a list of bytes and then an error, `Read` agrees with `Parse`
of that list (`readFrom_of_read`, `readFrom_of_none`).  So both decoders read back what both
encoders write, with any length that is long enough (`varint_codec`).
-/
import UQuic.QuicVarint
import UQuic.Lib.ByteStream

namespace UQuic.QuicVarint

variable {σ E : Type}

/-- `Read`. -/
def readFrom (readByte : ExceptT E (StateM σ) UInt8) : ExceptT E (StateM σ) Nat := do
  let firstByte ← readByte
  let l := 1 <<< ((firstByte &&& 0xc0) >>> 6).toNat
  let b1 := (firstByte &&& 0x3f).toNat
  if l = 1 then return b1
  let b2 ← readByte
  if l = 2 then return b2.toNat + b1 <<< 8
  let b3 ← readByte
  let b4 ← readByte
  if l = 4 then return b4.toNat + b3.toNat <<< 8 + b2.toNat <<< 16 + b1 <<< 24
  let b5 ← readByte
  let b6 ← readByte
  let b7 ← readByte
  let b8 ← readByte
  return b8.toNat + b7.toNat <<< 8 + b6.toNat <<< 16 + b5.toNat <<< 24 + b4.toNat <<< 32 +
    b3.toNat <<< 40 + b2.toNat <<< 48 + b1 <<< 56

section Bind

variable {α β : Type} {m : ExceptT E (StateM σ) α} {k : α → ExceptT E (StateM σ) β} {s s' : σ}

theorem bind_ok {a : α} (h : m s = (.ok a, s')) : (m >>= k) s = k a s' := by
  show (StateT.bind m (ExceptT.bindCont k)) s = _
  simp only [StateT.bind, h]
  rfl

theorem bind_error {e : E} (h : m s = (.error e, s')) : (m >>= k) s = (.error e, s') := by
  show (StateT.bind m (ExceptT.bindCont k)) s = _
  simp only [StateT.bind, h]
  rfl

end Bind

/-- A reader that delivers the bytes of a list, and then an error. -/
structure Delivers (readByte : ExceptT E (StateM σ) UInt8) (e : E) (R : σ → List UInt8 → Prop) :
    Prop where
  cons : ∀ {s b l}, R s (b :: l) → ∃ s', readByte s = (.ok b, s') ∧ R s' l
  nil : ∀ {s}, R s [] → ∃ s', readByte s = (.error e, s') ∧ R s' []

variable {readByte : ExceptT E (StateM σ) UInt8} {e : E} {R : σ → List UInt8 → Prop}

/-- The class of a first byte. -/
theorem class_lt (b : UInt8) : ((b &&& 0xc0) >>> 6).toNat < 4 := by
  have h : (b &&& 0xc0).toNat < 256 := UInt8.toNat_lt _
  rw [UInt8.toNat_shiftRight]
  show (b &&& 0xc0).toNat >>> 6 < 4
  rw [Nat.shiftRight_eq_div_pow]
  omega

/-- What `Parse` reads from the bytes, `Read` reads from the reader. -/
theorem readFrom_of_read (hd : Delivers readByte e R) {s : σ} {l l' : List UInt8} {v : Nat}
    (hR : R s l) (hread : read l = some (v, l')) :
    ∃ s', readFrom readByte s = (.ok v, s') ∧ R s' l' := by
  obtain ⟨⟨v', n⟩, hparse, heq⟩ := Option.map_eq_some_iff.mp hread
  cases heq
  rw [parse.eq_def] at hparse
  split at hparse
  · cases hparse
  · rename_i firstByte l
    obtain ⟨s₁, h₁, hR₁⟩ := hd.cons hR
    rw [readFrom, bind_ok h₁]
    dsimp only at hparse ⊢
    split at hparse
    · rename_i hq
      obtain ⟨rfl, rfl⟩ := Prod.mk.inj (Option.some.inj hparse)
      rw [hq]
      exact ⟨s₁, rfl, hR₁⟩
    · rename_i hq
      obtain ⟨rfl, rfl⟩ := Prod.mk.inj (Option.some.inj hparse)
      obtain ⟨s₂, h₂, hR₂⟩ := hd.cons hR₁
      rw [hq]
      refine ⟨s₂, (bind_ok h₂).trans rfl, hR₂⟩
    · rename_i hq
      obtain ⟨rfl, rfl⟩ := Prod.mk.inj (Option.some.inj hparse)
      obtain ⟨s₂, h₂, hR₂⟩ := hd.cons hR₁
      obtain ⟨s₃, h₃, hR₃⟩ := hd.cons hR₂
      obtain ⟨s₄, h₄, hR₄⟩ := hd.cons hR₃
      rw [hq]
      exact ⟨s₄, (bind_ok h₂).trans ((bind_ok h₃).trans ((bind_ok h₄).trans rfl)), hR₄⟩
    · rename_i hq
      obtain ⟨rfl, rfl⟩ := Prod.mk.inj (Option.some.inj hparse)
      obtain ⟨s₂, h₂, hR₂⟩ := hd.cons hR₁
      obtain ⟨s₃, h₃, hR₃⟩ := hd.cons hR₂
      obtain ⟨s₄, h₄, hR₄⟩ := hd.cons hR₃
      obtain ⟨s₅, h₅, hR₅⟩ := hd.cons hR₄
      obtain ⟨s₆, h₆, hR₆⟩ := hd.cons hR₅
      obtain ⟨s₇, h₇, hR₇⟩ := hd.cons hR₆
      obtain ⟨s₈, h₈, hR₈⟩ := hd.cons hR₇
      rw [hq]
      exact ⟨s₈, (bind_ok h₂).trans ((bind_ok h₃).trans ((bind_ok h₄).trans ((bind_ok h₅).trans
        ((bind_ok h₆).trans ((bind_ok h₇).trans ((bind_ok h₈).trans rfl)))))), hR₈⟩
    · cases hparse

/-- The next byte is missing, or what follows it fails. -/
theorem next_fails (hd : Delivers readByte e R) {s : σ} {l : List UInt8} (hR : R s l) {α : Type}
    {k : UInt8 → ExceptT E (StateM σ) α}
    (hk : ∀ b l' s', l = b :: l' → R s' l' → ∃ t, k b s' = (.error e, t) ∧ R t []) :
    ∃ t, (readByte >>= k) s = (.error e, t) ∧ R t [] := by
  cases l with
  | nil =>
    obtain ⟨t, h, hR⟩ := hd.nil hR
    exact ⟨t, bind_error h, hR⟩
  | cons b l =>
    obtain ⟨s', h, hR'⟩ := hd.cons hR
    rw [bind_ok h]
    exact hk b l s' rfl hR'

/-- Where `Parse` has too few bytes, `Read` uses them up and returns the reader's error. -/
theorem readFrom_of_none (hd : Delivers readByte e R) {s : σ} {l : List UInt8} (hR : R s l)
    (hread : read l = none) : ∃ t, readFrom readByte s = (.error e, t) ∧ R t [] := by
  have hparse : parse l = none := Option.map_eq_none_iff.mp hread
  rw [readFrom]
  refine next_fails hd hR fun firstByte l₁ s₁ hl hR₁ => ?_
  subst hl
  obtain ⟨q, hq⟩ : ∃ q, ((firstByte &&& 0xc0) >>> 6).toNat = q := ⟨_, rfl⟩
  have hlt : q < 4 := hq ▸ class_lt firstByte
  simp only [parse, hq] at hparse
  dsimp only
  rw [hq]
  obtain rfl | rfl | rfl | rfl : q = 0 ∨ q = 1 ∨ q = 2 ∨ q = 3 := by omega
  · simp at hparse
  · refine next_fails hd hR₁ fun b₂ l₂ s₂ hl _ => ?_
    subst hl
    simp at hparse
  · refine next_fails hd hR₁ fun b₂ l₂ s₂ hl₂ hR₂ => ?_
    refine next_fails hd hR₂ fun b₃ l₃ s₃ hl₃ hR₃ => ?_
    refine next_fails hd hR₃ fun b₄ l₄ s₄ hl₄ _ => ?_
    subst hl₄ hl₃ hl₂
    simp at hparse
  · refine next_fails hd hR₁ fun b₂ l₂ s₂ hl₂ hR₂ => ?_
    refine next_fails hd hR₂ fun b₃ l₃ s₃ hl₃ hR₃ => ?_
    refine next_fails hd hR₃ fun b₄ l₄ s₄ hl₄ hR₄ => ?_
    refine next_fails hd hR₄ fun b₅ l₅ s₅ hl₅ hR₅ => ?_
    refine next_fails hd hR₅ fun b₆ l₆ s₆ hl₆ hR₆ => ?_
    refine next_fails hd hR₆ fun b₇ l₇ s₇ hl₇ hR₇ => ?_
    refine next_fails hd hR₇ fun b₈ l₈ s₈ hl₈ _ => ?_
    subst hl₈ hl₇ hl₆ hl₅ hl₄ hl₃ hl₂
    simp at hparse

/-! ## Both encoders and both decoders -/

/-- Both decoders read a number back from its bytes, whatever follows them, and read no more. -/
def Encodes (readByte : ExceptT E (StateM σ) UInt8) (R : σ → List UInt8 → Prop)
    (c : List UInt8) (v : Nat) : Prop :=
  ∀ rest, parse (c ++ rest) = some (v, c.length) ∧
    ∀ s, R s (c ++ rest) → ∃ t, readFrom readByte s = (.ok v, t) ∧ R t rest

theorem encodes_of_parse (hd : Delivers readByte e R) {c : List UInt8} {v : Nat}
    (h : ∀ rest, parse (c ++ rest) = some (v, c.length)) : Encodes readByte R c v := by
  refine fun rest => ⟨h rest, fun s hR => readFrom_of_read hd hR ?_⟩
  rw [read, h rest, Option.map_some, List.drop_left]

/-- **The codec.**  `Append` and `AppendWithLen` write as many bytes as they should, `Parse` and
`Read` read them back; and on any bytes these two agree. -/
theorem varint_codec (hd : Delivers readByte e R) :
    (∀ v < 2 ^ 62, ∀ b, ∃ c n, append b v = some (b ++ c) ∧ len v = some n ∧ c.length = n ∧
      Encodes readByte R c v) ∧
    (∀ v < 2 ^ 62, ∀ b, ∀ l ∈ [1, 2, 4, 8], (∀ n, len v = some n → n ≤ l) →
      ∃ c, appendWithLen b v l = some (b ++ c) ∧ c.length = l ∧ Encodes readByte R c v) ∧
    ∀ bytes s, R s bytes →
      (parse bytes = none ∧ ∃ t, readFrom readByte s = (.error e, t)) ∨
      ∃ v n t, parse bytes = some (v, n) ∧ v < 2 ^ 62 ∧ readFrom readByte s = (.ok v, t) ∧
        R t (bytes.drop n) := by
  refine ⟨fun v hv b => ?_, fun v hv b l hl hn => ?_, fun bytes s hR => ?_⟩
  · have hmax : v ≤ maxVarInt8 := Nat.le_pred_of_lt hv
    refine ⟨encode v, size v, append_eq b hmax, len_eq hmax, length_encode,
      encodes_of_parse hd fun rest => ?_⟩
    rw [length_encode]
    exact parse_encode hmax rest
  · have hmax : v ≤ maxVarInt8 := Nat.le_pred_of_lt hv
    have hl : l = 1 ∨ l = 2 ∨ l = 4 ∨ l = 8 := by simpa using hl
    have hle := hn _ (len_eq hmax)
    have hread := parse_encodeWithLen hl hmax hle
    refine ⟨encodeWithLen v l, ?_, (hread []).1, encodes_of_parse hd fun rest => ?_⟩
    · rw [appendWithLen_eq hl, if_pos ⟨hmax, hle⟩]
    · rw [(hread []).1]
      exact (hread rest).2
  · cases hparse : parse bytes with
    | none =>
      obtain ⟨t, ht, -⟩ := readFrom_of_none hd hR (Option.map_eq_none_iff.mpr hparse)
      exact .inl ⟨rfl, t, ht⟩
    | some r =>
      obtain ⟨v, n⟩ := r
      obtain ⟨t, ht, hR'⟩ := readFrom_of_read hd hR (by rw [read, hparse, Option.map_some])
      exact .inr ⟨v, n, t, rfl, (parse_bounds hparse).2, ht, hR'⟩

/-! ## Byte streams -/

variable {ε : Type}

/-- `byteReader.ReadByte`, of a stream of bytes. -/
def streamByte : ExceptT (ReadError ε) (StateM (ByteStream ε)) UInt8 := ByteStream.readByte

/-- `Read` from a stream of bytes. -/
def readStream (s : ByteStream ε) : Except (ReadError ε) Nat × ByteStream ε :=
  readFrom streamByte s

theorem delivers_streamByte : Delivers (@streamByte ε) .eof
    fun s l => s.rest = l ∧ s.ending = .eof where
  cons := by
    rintro s b l ⟨hrest, hend⟩
    obtain ⟨k, hread, hdrop⟩ := ByteStream.readByte_cons hrest hend
    exact ⟨_, hread, hdrop, hend⟩
  nil := by
    rintro s ⟨hrest, hend⟩
    obtain ⟨k, hread⟩ := ByteStream.readByte_nil hrest
    rw [hend] at hread
    refine ⟨_, hread, ?_, hend⟩
    rw [ByteStream.rest_advance, hrest, List.drop_nil]

/-- Five, written with four bytes behind another byte. -/
theorem varint_codec_stream : ∃ c, appendWithLen [7] 5 4 = some ([7] ++ c) ∧ c.length = 4 ∧
    Encodes (@streamByte Unit) (fun s l => s.rest = l ∧ s.ending = .eof) c 5 :=
  (varint_codec delivers_streamByte).2.1 5 (by decide) [7] 4 (by decide) fun n hn => by
    cases hn
    decide

/-- `Read` from a stream that ends with `eof` is `Parse` of the bytes that are left. -/
theorem readStream_eq {s : ByteStream ε} (hend : s.ending = .eof) :
    (∃ v l t, read s.rest = some (v, l) ∧ readStream s = (.ok v, t) ∧ s.Follows l t) ∨
    (∃ t, read s.rest = none ∧ readStream s = (.error .eof, t) ∧ s.Follows [] t) := by
  cases hread : read s.rest with
  | none =>
    obtain ⟨t, h, hrest, hend'⟩ := readFrom_of_none delivers_streamByte ⟨rfl, hend⟩ hread
    exact .inr ⟨t, rfl, h, hrest, hend'.trans hend.symm⟩
  | some r =>
    obtain ⟨v, l⟩ := r
    obtain ⟨t, h, hrest, hend'⟩ := readFrom_of_read delivers_streamByte ⟨rfl, hend⟩ hread
    exact .inl ⟨v, l, t, rfl, h, hrest, hend'.trans hend.symm⟩

end UQuic.QuicVarint
