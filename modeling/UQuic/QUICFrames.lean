/-
# `UQuic.QUICFrames` — the model of `u_quic_frames.go`

A frame builder lays the data of the crypto stream out as the frames of an Initial
packet.  `QUICFrames` is a fixed list of frames; `QUICRandomFrames` draws one:

    count     so many PING and so many CRYPTO frames, both drawn
    split     the data over the CRYPTO frames, at drawn places
    shorten   the data until the frames fit the budget
    pad       up to the configured length, with PADDING frames of drawn lengths
    shuffle   all the frames, and write them

A CRYPTO frame is held by its offset in the crypto stream and its length, where the
length `0` stands for the rest of the data.  What the random sources return is in
`Choices`; `none` is an error of `crypto/rand`.

Offsets and lengths are `int`s in the source.  A negative one makes
`quicvarint.Append` or `make` panic whatever else the list holds, and is left out.
-/
import UQuic.Wire.Frame

namespace UQuic

/-- `QUICFrameCrypto`. -/
structure QUICFrameCrypto where
  offset : Nat
  length : Nat
  deriving DecidableEq, Repr

/-- `QUICFrame`: `QUICFrameCrypto`, `QUICFramePadding` and `QUICFramePing`. -/
inductive QUICFrame
  | crypto (f : QUICFrameCrypto)
  | padding (length : Nat)
  | ping
  deriving DecidableEq, Repr

/-- The errors and the panics of the builders. -/
inductive BuildError
  /-- One of the checks of the bounds, with its text. -/
  | bounds (text : String)
  /-- An error of `crypto/rand`. -/
  | rand
  /-- `errInitialFrameBudget`, with the budget. -/
  | frameBudget (maxSize : Nat)
  /-- Panic: a number of more than 62 bits, or a negative one. -/
  | tooLarge
  /-- Panic: `slice bounds out of range`. -/
  | sliceOutOfRange
  /-- A loop up to `0 - 1` as a `uint64`, which fills the memory. -/
  | runaway
  deriving DecidableEq, Repr

/-- The error value is returned; the others end the program. -/
def BuildError.Returned : BuildError → Prop
  | .bounds _ | .rand | .frameBudget _ => True
  | .tooLarge | .sliceOutOfRange | .runaway => False

namespace QUICFrames

def maxInt : Nat := 2 ^ 63 - 1

/-- The lower of an offset and that of a CRYPTO frame. -/
def lower (lowest : Nat) : QUICFrame → Nat
  | .crypto f => if f.offset < lowest then f.offset else lowest
  | .padding _ => lowest
  | .ping => lowest

/-- `lowestOffset`: `0` if there are no CRYPTO frames. -/
def lowestOffset (fs : List QUICFrame) : Nat :=
  let lowestOffset := fs.foldl lower maxInt
  if lowestOffset = maxInt then 0 else lowestOffset

/-- The length of a CRYPTO frame, where `0` is the rest of the data after `lengthOffset`. -/
def frameLength (cryptoData : List UInt8) (lengthOffset length : Nat) : Except BuildError Nat :=
  if length ≠ 0 then .ok length
  else if cryptoData.length < lengthOffset then .error .tooLarge
  else .ok (cryptoData.length - lengthOffset)

/-- A CRYPTO frame of `Build`: the data from `lengthOffset` on, filled up with zeros. -/
def buildCrypto (cryptoData : List UInt8) (lowestOffset : Nat) (f : QUICFrameCrypto) :
    Except BuildError (List UInt8) :=
  let lengthOffset := f.offset - lowestOffset
  (frameLength cryptoData lengthOffset f.length).bind fun length =>
    match (QuicVarint.append [0x6] f.offset).bind (QuicVarint.append · length) with
    | none => .error .tooLarge
    | some header =>
      if cryptoData.length < lengthOffset then .error .sliceOutOfRange
      else .ok (header ++ ((cryptoData.drop lengthOffset).takeD length 0))

def buildFrame (cryptoData : List UInt8) (lowestOffset : Nat) :
    QUICFrame → Except BuildError (List UInt8)
  | .crypto f => buildCrypto cryptoData lowestOffset f
  | .padding length => .ok (List.replicate length 0x0)
  | .ping => .ok [0x1]

def buildFrames (cryptoData : List UInt8) (lowestOffset : Nat) :
    List QUICFrame → Except BuildError (List UInt8)
  | [] => .ok []
  | f :: fs =>
    (buildFrame cryptoData lowestOffset f).bind fun b =>
      (buildFrames cryptoData lowestOffset fs).map (b ++ ·)

/-- `Build`: no frames stand for a single CRYPTO frame. -/
def build (cryptoData : List UInt8) (fs : List QUICFrame) : Except BuildError (List UInt8) :=
  let fs := if fs.isEmpty then [.crypto ⟨0, 0⟩] else fs
  buildFrames cryptoData (lowestOffset fs) fs

end QUICFrames

/-- `QUICRandomFrames`. -/
structure QUICRandomFrames where
  minPING : UInt8
  maxPING : UInt8
  minCRYPTO : UInt8
  maxCRYPTO : UInt8
  minPADDING : UInt8
  maxPADDING : UInt8
  length : UInt16
  deriving DecidableEq, Repr

namespace QUICRandomFrames

/-- What the random sources return, for each place where one is asked. -/
structure Choices where
  ping : Option Nat
  crypto : Option Nat
  /-- By the number of CRYPTO frames still to come. -/
  cryptoLen : Nat → Option Nat
  padding : Option Nat
  /-- By the number of PADDING frames still to come. -/
  paddingLen : Nat → Option Nat
  /-- The partner of each position in the shuffle. -/
  swap : Nat → Nat

def checkBounds (q : QUICRandomFrames) : Except BuildError Unit :=
  if q.maxPING < q.minPING then
    .error (.bounds "MinPING must be less than or equal to MaxPING")
  else if q.minCRYPTO < 1 then .error (.bounds "MinCRYPTO must be at least 1")
  else if q.maxCRYPTO < q.minCRYPTO then
    .error (.bounds "MinCRYPTO must be less than or equal to MaxCRYPTO")
  else if q.minPADDING < 1 ∧ q.length ≠ 0 then
    .error (.bounds "MinPADDING must be at least 1 if Length is not 0")
  else if q.maxPADDING < q.minPADDING ∧ q.length ≠ 0 then
    .error (.bounds "MinPADDING must be less than or equal to MaxPADDING if Length is not 0")
  else .ok ()

/-- `cryptoSafeRandUint64`: from the half-open range, or its lower end if it is empty. -/
def cryptoSafeRandUint64 (draw : Option Nat) (min max : Nat) : Except BuildError Nat :=
  if max ≤ min then .ok min
  else
    match draw with
    | none => .error .rand
    | some r => .ok (min + r % (max - min))

def subSat (a b : Nat) : Nat := if a ≤ b then 0 else a - b

/-- The lengths of `n + 1` frames that share `len` bytes: `n` drawn ones, each leaving a
byte for every frame after it where that is possible, and the rest. -/
def splitLengths (draw : Nat → Option Nat) : Nat → Nat → Except BuildError (List Nat)
  | 0, len => .ok [len]
  | n + 1, len =>
    (cryptoSafeRandUint64 (draw n) 1 (subSat len n)).bind fun l =>
      let l := if len < l then len else l
      (splitLengths draw n (len - l)).map (l :: ·)

/-- `numFrames - 1` drawn lengths and the rest; with no frames the loop does not end. -/
def splitOver (draw : Nat → Option Nat) (numFrames len : Nat) : Except BuildError (List Nat) :=
  match numFrames with
  | 0 => .error .runaway
  | n + 1 => splitLengths draw n len

/-- The CRYPTO frames of such lengths from `offset` on; the last one takes the rest. -/
def cryptoFrames (offset : Nat) : List Nat → List QUICFrameCrypto
  | [] => []
  | [_] => [⟨offset, 0⟩]
  | l :: ls => ⟨offset, l⟩ :: cryptoFrames (offset + l) ls

/-- `frameList` before the padding. -/
def frameList (numPING : Nat) (cs : List QUICFrameCrypto) : List QUICFrame :=
  List.replicate numPING .ping ++ cs.map .crypto

/-- `prefixFrames`: the frames, cut down to the first `remaining` bytes of the data, with a
byte left for each of the frames that follow while there are enough.  `dataEnd` is the end
of the data, which is where a frame of length `0` reaches to. -/
def prefixFrames (dataEnd : Nat) : Nat → Nat → List QUICFrameCrypto → List QUICFrameCrypto
  | _, _, [] => []
  | remaining, offset, c :: cs =>
    let length := if c.length = 0 then dataEnd - c.offset else c.length
    let length := min length (min remaining (max 1 (remaining - cs.length)))
    ⟨offset, length⟩ :: prefixFrames dataEnd (remaining - length) (offset + length) cs

/-- The sum in `prefixSize`. -/
def framesSize (size : Nat) : List QUICFrameCrypto → Except BuildError Nat
  | [] => .ok size
  | c :: cs =>
    match QuicVarint.len c.offset, QuicVarint.len c.length with
    | some l, some m => framesSize (size + (1 + l + m + c.length)) cs
    | _, _ => .error .tooLarge

/-- The binary search for the longest prefix that fits. -/
def search (prefixSize : Nat → Except BuildError Nat) (maxSize low high : Nat) :
    Except BuildError Nat :=
  if low < high then
    let middle := low + (high - low + 1) / 2
    (prefixSize middle).bind fun size =>
      if size ≤ maxSize then search prefixSize maxSize middle high
      else search prefixSize maxSize low (middle - 1)
  else .ok low
termination_by high - low

/-- What is laid out: the CRYPTO frames, the data they carry, and the size of both with the
PING frames. -/
structure Fitted where
  frames : List QUICFrameCrypto
  data : List UInt8
  size : Nat
  deriving DecidableEq, Repr

/-- The branch that shortens the data to the budget. -/
def shorten (cryptoData : List UInt8) (baseOffset maxSize numPING : Nat)
    (cs : List QUICFrameCrypto) : Except BuildError Fitted :=
  let frames n := prefixFrames (baseOffset + cryptoData.length) n baseOffset cs
  let prefixSize n := framesSize numPING (frames n)
  let low := min 1 cryptoData.length
  (prefixSize low).bind fun size =>
    if maxSize < size then .error (.frameBudget maxSize)
    else (search prefixSize maxSize low cryptoData.length).bind fun low =>
      let data := cryptoData.take low
      (QUICFrames.build data (frameList numPING (frames low))).map fun dryrunPayload =>
        ⟨frames low, data, dryrunPayload.length⟩

/-- The dry run, and the branch for a payload that is too large. -/
def fit (cryptoData : List UInt8) (baseOffset maxSize numPING : Nat)
    (cs : List QUICFrameCrypto) : Except BuildError Fitted :=
  (QUICFrames.build cryptoData (frameList numPING cs)).bind fun dryrunPayload =>
    if maxSize < dryrunPayload.length then shorten cryptoData baseOffset maxSize numPING cs
    else .ok ⟨cs, cryptoData, dryrunPayload.length⟩

/-- The PADDING frames, for the bytes that are missing to the configured length. -/
def paddingFrames (q : QUICRandomFrames) (choices : Choices) (maxSize size : Nat) :
    Except BuildError (List QUICFrame) :=
  let lenPADDING := min q.length.toNat maxSize - size
  if lenPADDING = 0 then .ok []
  else
    (cryptoSafeRandUint64 choices.padding q.minPADDING.toNat q.maxPADDING.toNat).bind
      fun numPADDING =>
        (splitOver choices.paddingLen numPADDING lenPADDING).map (·.map .padding)

def swapAt {α : Type} (l : List α) (i j : Nat) : List α :=
  match l[i]?, l[j]? with
  | some a, some b => (l.set i b).set j a
  | _, _ => l

/-- `rand.Shuffle`, from position `i` down. -/
def shuffle {α : Type} (swap : Nat → Nat) : Nat → List α → List α
  | 0, l => l
  | i + 1, l => shuffle swap i (swapAt l (i + 1) (swap (i + 1) % (i + 2)))

/-- `buildAtWithLimit`: the payload, and how many bytes of the data are in it. -/
def buildAtWithLimit (q : QUICRandomFrames) (choices : Choices) (cryptoData : List UInt8)
    (baseOffset maxSize : Nat) : Except BuildError (List UInt8 × Nat) :=
  q.checkBounds.bind fun _ =>
    (cryptoSafeRandUint64 choices.ping q.minPING.toNat q.maxPING.toNat).bind fun numPING =>
      (cryptoSafeRandUint64 choices.crypto q.minCRYPTO.toNat q.maxCRYPTO.toNat).bind
        fun numCRYPTO =>
          (splitOver choices.cryptoLen numCRYPTO cryptoData.length).bind fun lens =>
            (fit cryptoData baseOffset maxSize numPING (cryptoFrames baseOffset lens)).bind
              fun fitted =>
                (paddingFrames q choices maxSize fitted.size).bind fun padding =>
                  let frames := frameList numPING fitted.frames ++ padding
                  let frames := shuffle choices.swap (frames.length - 1) frames
                  (QUICFrames.build fitted.data frames).map fun payload =>
                    (payload, fitted.data.length)

end QUICRandomFrames

end UQuic
