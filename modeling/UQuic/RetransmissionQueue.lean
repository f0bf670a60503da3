/-
# `UQuic.RetransmissionQueue` — crypto data waiting to be sent

`retransmission_queue.go` and the sending half of `crypto_stream.go`.  New data sits
in the write buffer of a crypto stream; what was lost comes back to the
retransmission queue, CRYPTO frames on one list and all others on another.
`GetInitialFrame` and `GetHandshakeFrame` are one function over the two lists of an
encryption level.

A frame other than CRYPTO and PING is held by the bytes that its `Append` writes,
so that its length is the number of them.  `none` is a panic.

## What is proved

    popCryptoFrame   takes a prefix of the buffer
    getFrame         takes a frame off the queue, or cuts a CRYPTO frame in two
-/
import UQuic.Wire.Frame

namespace UQuic

open List Option
open Wire (CryptoFrame)
open QuicVarint (maxVarInt8)

/-! ## Frames -/

/-- `wire.Frame`, as the packer handles it. -/
inductive OutgoingFrame
  | crypto (f : CryptoFrame)
  | ping
  | other (bytes : List UInt8)
  deriving DecidableEq, Repr

variable {f : OutgoingFrame}

namespace OutgoingFrame

def append (b : List UInt8) : OutgoingFrame → Option (List UInt8)
  | .crypto f => f.append b
  | .ping => some (b ++ [0x1])
  | .other bytes => some (b ++ bytes)

def length : OutgoingFrame → Option Nat
  | .crypto f => f.length
  | .ping => some 1
  | .other bytes => some bytes.length

def crypto? : OutgoingFrame → Option CryptoFrame
  | .crypto f => some f
  | .ping => none
  | .other _ => none

def bytes : OutgoingFrame → List UInt8
  | .crypto f => f.bytes
  | .ping => [0x1]
  | .other bytes => bytes

theorem append_eq_some {b c : List UInt8} (h : f.append b = some c) :
    c = b ++ f.bytes ∧ ∀ g, f = .crypto g → g.Encodable := by
  cases f with
  | crypto f =>
    obtain ⟨henc, rfl⟩ := (CryptoFrame.append_eq_some_iff b c).mp h
    exact ⟨rfl, fun g hg => by cases hg; exact henc⟩
  | ping | other bs => exact ⟨(Option.some.inj h).symm, nofun⟩

theorem length_eq_some {n : Nat} (h : f.length = some n) :
    n = f.bytes.length ∧ ∀ b, f.append b = some (b ++ f.bytes) := by
  cases f with
  | crypto f =>
    obtain ⟨henc, rfl⟩ := (CryptoFrame.length_eq_some_iff n).mp h
    exact ⟨rfl, fun b => (CryptoFrame.append_eq_some_iff b _).mpr ⟨henc, rfl⟩⟩
  | ping | other bs => exact ⟨(Option.some.inj h).symm, fun b => rfl⟩

end OutgoingFrame

/-! ## The crypto stream -/

/-- `cryptoStream`, what it sends. -/
structure CryptoStream where
  writeOffset : Nat
  writeBuf : List UInt8
  deriving DecidableEq, Repr

namespace CryptoStream

def write (s : CryptoStream) (p : List UInt8) : CryptoStream :=
  { s with writeBuf := s.writeBuf ++ p }

def hasData (s : CryptoStream) : Bool := !s.writeBuf.isEmpty

def popCryptoFrame (s : CryptoStream) (maxLen : Int) : Option (CryptoFrame × CryptoStream) :=
  (CryptoFrame.maxDataLen ⟨s.writeOffset, []⟩ maxLen).map fun maxDataLen =>
    let n := min maxDataLen.toNat s.writeBuf.length
    (⟨s.writeOffset, s.writeBuf.take n⟩, ⟨s.writeOffset + n, s.writeBuf.drop n⟩)

end CryptoStream

/-! ## The queue -/

/-- The two lists of an encryption level: `initial` and `initialCryptoData`, `handshake` and
`handshakeCryptoData`. -/
structure LevelQueue where
  frames : List OutgoingFrame
  cryptoData : List CryptoFrame
  deriving DecidableEq, Repr

namespace LevelQueue

/-- `addInitial`, `addHandshake`. -/
def add (q : LevelQueue) : OutgoingFrame → LevelQueue
  | .crypto f => { q with cryptoData := q.cryptoData ++ [f] }
  | .ping => { q with frames := q.frames ++ [.ping] }
  | .other bytes => { q with frames := q.frames ++ [.other bytes] }

/-- `HasInitialData`, `HasHandshakeData`. -/
def hasData (q : LevelQueue) : Bool := !q.cryptoData.isEmpty || !q.frames.isEmpty

/-- The first frame that is not CRYPTO, if it fits; the same for `GetAppDataFrame`. -/
def popFrame (maxLen : Int) :
    List OutgoingFrame → Option (Option (OutgoingFrame × List OutgoingFrame))
  | [] => some none
  | f :: frames => f.length.map fun l : Nat => if maxLen < l then none else some (f, frames)

/-- The part of `GetInitialFrame` and `GetHandshakeFrame` after the CRYPTO frames. -/
def getOther (q : LevelQueue) (maxLen : Int) : Option (Option (OutgoingFrame × LevelQueue)) :=
  (popFrame maxLen q.frames).map fun r => r.map fun (f, frames) => (f, { q with frames := frames })

/-- `GetInitialFrame`, `GetHandshakeFrame`: the frame and what is left, or nothing. -/
def getFrame (q : LevelQueue) (maxLen : Int) : Option (Option (OutgoingFrame × LevelQueue)) :=
  match q.cryptoData with
  | [] => q.getOther maxLen
  | f :: rest =>
    (f.maybeSplitOffFrame maxLen).bind fun
      | .fits => some (some (.crypto f, { q with cryptoData := rest }))
      | .split new left => some (some (.crypto new, { q with cryptoData := left :: rest }))
      | .tooSmall => q.getOther maxLen

end LevelQueue

/-- `retransmissionQueue`. -/
structure RetransmissionQueue where
  initial : LevelQueue
  handshake : LevelQueue
  appData : List OutgoingFrame
  deriving DecidableEq, Repr

/-! ## What is taken -/

/-- `g` is cut into `f` and `left`. -/
structure CutInto (g f left : CryptoFrame) : Prop where
  offset_eq : f.offset = g.offset
  left_offset : left.offset = g.offset + f.data.length
  data_eq : g.data = f.data ++ left.data
  nonempty : f.data ≠ []

theorem maxDataLen_nonneg {f : CryptoFrame} {maxSize n : Int} (h : f.maxDataLen maxSize = some n) :
    0 ≤ n :=
  CryptoFrame.maxDataLen_eq_some h ▸ QuicVarint.room_nonneg

/-- `MaybeSplitOffFrame` cuts the frame in two, the first part not empty. -/
theorem cutInto_of_split {g f left : CryptoFrame} {maxSize : Int}
    (h : g.maybeSplitOffFrame maxSize = some (.split f left)) : CutInto g f left := by
  obtain ⟨l, -, h⟩ := bind_eq_some_iff.mp h
  split at h
  · cases h
  · obtain ⟨n, hn, h⟩ := bind_eq_some_iff.mp h
    split at h
    · cases h
    · rename_i hne
      split_ifs at h
      have hpos := maxDataLen_nonneg hn
      cases h
      have hlen : (g.data.take n.toNat).length = n.toNat := by
        rw [length_take]
        omega
      have hne : g.data.take n.toNat ≠ [] := ne_nil_of_length_pos (by omega)
      exact ⟨rfl, by rw [hlen], (take_append_drop _ _).symm, hne⟩

/-- What `getFrame` takes off the queue: a frame, or a part of the first CRYPTO frame. -/
inductive LevelQueue.Taken (q : LevelQueue) : OutgoingFrame → LevelQueue → Prop
  | crypto {f : CryptoFrame} {rest : List CryptoFrame} (h : q.cryptoData = f :: rest) :
      Taken q (.crypto f) { q with cryptoData := rest }
  | split {g f left : CryptoFrame} {rest : List CryptoFrame} (h : q.cryptoData = g :: rest)
      (cut : CutInto g f left) : Taken q (.crypto f) { q with cryptoData := left :: rest }
  | other {f : OutgoingFrame} {rest : List OutgoingFrame} (h : q.frames = f :: rest) :
      Taken q f { q with frames := rest }

theorem popFrame_eq_some {frames rest : List OutgoingFrame} {maxLen : Int}
    (h : LevelQueue.popFrame maxLen frames = some (some (f, rest))) :
    frames = f :: rest ∧ ∃ l : Nat, f.length = some l ∧ l ≤ maxLen := by
  cases frames with
  | nil => cases h
  | cons g frames =>
    obtain ⟨l, hl, h⟩ := map_eq_some_iff.mp h
    split_ifs at h
    cases h
    exact ⟨rfl, l, hl, by omega⟩

theorem getOther_taken {q q' : LevelQueue} {maxLen : Int}
    (h : q.getOther maxLen = some (some (f, q'))) : q.Taken f q' := by
  obtain ⟨r, hr, h⟩ := map_eq_some_iff.mp h
  obtain ⟨⟨g, rest⟩, rfl, h⟩ := map_eq_some_iff.mp h
  cases h
  exact .other (popFrame_eq_some hr).1

theorem getFrame_taken {q q' : LevelQueue} {maxLen : Int}
    (h : q.getFrame maxLen = some (some (f, q'))) : q.Taken f q' := by
  simp only [LevelQueue.getFrame] at h
  split at h
  · exact getOther_taken h
  · rename_i g rest hq
    obtain ⟨r, hr, h⟩ := bind_eq_some_iff.mp h
    cases r with
    | fits =>
      cases h
      exact .crypto hq
    | tooSmall => exact getOther_taken h
    | split new left =>
      cases h
      exact .split hq (cutInto_of_split hr)

end UQuic
