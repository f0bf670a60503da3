/-
# `UQuic.Handshake.TokenGenerator` — tokens that a server issues

`token_generator.go` and `token_protector.go`.  A token is

    nonce | AEAD(nonce, ASN.1 of the address, the time and, for a Retry, two connection IDs)

and is sent to a client in a Retry packet or in a NEW_TOKEN frame.  The AEAD and ASN.1 are
given with what is assumed of them (`TokenCrypto`).  That the AEAD is ideal is an assumption on
the tokens that clients send, and is made where packets are received.

## What is proved

`decodeToken_bytes`: a token that was issued is decoded to what it was issued for.
-/
import UQuic.Wire.Header

namespace UQuic.Handshake

open Wire (ConnectionID maxConnIDLen)

/-- `net.Addr`: a UDP address, or another one with its text. -/
inductive Addr
  | udp (ip : List UInt8) (port : Nat)
  | other (text : List UInt8)
  deriving DecidableEq, Repr

def tokenPrefixIP : UInt8 := 0

def tokenPrefixString : UInt8 := 1

/-- `encodeRemoteAddr`: the port of a UDP address is left out. -/
def encodeRemoteAddr : Addr → List UInt8
  | .udp ip _ => tokenPrefixIP :: ip
  | .other text => tokenPrefixString :: text

/-- `token`, the struct that is serialized. -/
structure TokenData where
  isRetryToken : Bool
  remoteAddr : List UInt8
  timestamp : Int
  originalDestConnectionID : List UInt8
  retrySrcConnectionID : List UInt8
  deriving DecidableEq, Repr

/-- `Token`. -/
structure Token where
  isRetryToken : Bool
  sentTime : Int
  encodedRemoteAddr : List UInt8
  originalDestConnectionID : List UInt8
  retrySrcConnectionID : List UInt8
  deriving DecidableEq, Repr

def Token.validateRemoteAddr (t : Token) (addr : Addr) : Bool :=
  encodeRemoteAddr addr == t.encodedRemoteAddr

def tokenNonceSize : Nat := 32

/-- The nonce of a token. -/
structure TokenNonce where
  bytes : List UInt8
  length_eq : bytes.length = tokenNonceSize

/-- The AEAD under the key of the generator, and `asn1.Marshal` and `Unmarshal` for `token`. -/
structure TokenCrypto where
  aeadSeal : List UInt8 → List UInt8 → List UInt8
  aeadOpen : List UInt8 → List UInt8 → Option (List UInt8)
  aeadOpen_aeadSeal : ∀ nonce data, aeadOpen nonce (aeadSeal nonce data) = some data
  marshal : TokenData → List UInt8
  unmarshal : List UInt8 → Option (TokenData × List UInt8)
  unmarshal_marshal : ∀ t, unmarshal (marshal t) = some (t, [])

/-- The errors of `DecodeToken`. -/
inductive TokenError
  /-- `token too short: %d`. -/
  | tooShort (length : Nat)
  /-- Of the AEAD. -/
  | aeadOpen
  /-- Of `asn1.Unmarshal`. -/
  | unmarshal
  /-- `rest when unpacking token: %d`. -/
  | rest (length : Nat)
  /-- `ParseConnectionID` panics. -/
  | connectionIDTooLong
  deriving DecidableEq, Repr

/-- The assumptions can be met, by an AEAD that hides nothing. -/
instance : Nonempty TokenCrypto := by
  let _ : Encodable UInt8 := .ofLeftInverse UInt8.toNat UInt8.ofNat fun _ => UInt8.ofNat_toNat
  let code : Encodable TokenData := .ofLeftInverse
    (fun t => (t.isRetryToken, t.remoteAddr, t.timestamp, t.originalDestConnectionID,
      t.retrySrcConnectionID))
    (fun x => ⟨x.1, x.2.1, x.2.2.1, x.2.2.2.1, x.2.2.2.2⟩) fun _ => rfl
  exact ⟨{
    aeadSeal := fun _ data => data
    aeadOpen := fun _ data => some data
    aeadOpen_aeadSeal := fun _ _ => rfl
    marshal := fun t => List.replicate (code.encode t) 0
    unmarshal := fun data => (code.decode data.length).map (·, [])
    unmarshal_marshal := fun t => by rw [List.length_replicate, code.encodek, Option.map_some] }⟩

namespace TokenCrypto

variable (c : TokenCrypto)

/-- `tokenProtector.NewToken`. -/
def protect (nonce : TokenNonce) (data : List UInt8) : List UInt8 :=
  nonce.bytes ++ c.aeadSeal nonce.bytes data

/-- `tokenProtector.DecodeToken`. -/
def unprotect (p : List UInt8) : Except TokenError (List UInt8) :=
  if p.length < tokenNonceSize then .error (.tooShort p.length)
  else
    match c.aeadOpen (p.take tokenNonceSize) (p.drop tokenNonceSize) with
    | none => .error .aeadOpen
    | some data => .ok data

def newRetryToken (now : Int) (raddr : Addr) (origDestConnID retrySrcConnID : ConnectionID)
    (nonce : TokenNonce) : List UInt8 :=
  c.protect nonce (c.marshal
    ⟨true, encodeRemoteAddr raddr, now, origDestConnID.bytes, retrySrcConnID.bytes⟩)

def newToken (now : Int) (raddr : Addr) (nonce : TokenNonce) : List UInt8 :=
  c.protect nonce (c.marshal ⟨false, encodeRemoteAddr raddr, now, [], []⟩)

/-- The token of a struct; only Retry tokens have connection IDs. -/
def tokenOf (t : TokenData) : Except TokenError Token :=
  if t.isRetryToken = false then .ok ⟨false, t.timestamp, t.remoteAddr, [], []⟩
  else if maxConnIDLen < t.originalDestConnectionID.length ∨
      maxConnIDLen < t.retrySrcConnectionID.length then .error .connectionIDTooLong
  else .ok ⟨true, t.timestamp, t.remoteAddr, t.originalDestConnectionID, t.retrySrcConnectionID⟩

/-- `DecodeToken`; no token is decoded to nil. -/
def decodeToken (encrypted : List UInt8) : Except TokenError (Option Token) :=
  if encrypted = [] then .ok none
  else
    match c.unprotect encrypted with
    | .error e => .error e
    | .ok data =>
      match c.unmarshal data with
      | none => .error .unmarshal
      | some (t, []) => (tokenOf t).map some
      | some (_, rest) => .error (.rest rest.length)

end TokenCrypto

/-! ## Tokens that were issued -/

/-- The arguments that a token was issued with; `retry` are the connection IDs of
`NewRetryToken`. -/
structure IssuedToken where
  nonce : TokenNonce
  time : Int
  remoteAddr : Addr
  retry : Option (ConnectionID × ConnectionID)

namespace IssuedToken

/-- What the generator returned. -/
def bytes (c : TokenCrypto) (i : IssuedToken) : List UInt8 :=
  match i.retry with
  | none => c.newToken i.time i.remoteAddr i.nonce
  | some (orig, src) => c.newRetryToken i.time i.remoteAddr orig src i.nonce

/-- What it is decoded to. -/
def token (i : IssuedToken) : Token where
  isRetryToken := i.retry.isSome
  sentTime := i.time
  encodedRemoteAddr := encodeRemoteAddr i.remoteAddr
  originalDestConnectionID := (i.retry.map (·.1.bytes)).getD []
  retrySrcConnectionID := (i.retry.map (·.2.bytes)).getD []

end IssuedToken

theorem TokenCrypto.protect_ne_nil (c : TokenCrypto) (nonce : TokenNonce) (data : List UInt8) :
    c.protect nonce data ≠ [] := by
  intro h
  have hlen := congrArg List.length h
  rw [protect, List.length_append, nonce.length_eq] at hlen
  simp [tokenNonceSize] at hlen

theorem TokenCrypto.unprotect_protect (c : TokenCrypto) (nonce : TokenNonce) (data : List UInt8) :
    c.unprotect (c.protect nonce data) = .ok data := by
  have htake : (c.protect nonce data).take tokenNonceSize = nonce.bytes := by
    rw [protect, ← nonce.length_eq, List.take_left]
  have hdrop : (c.protect nonce data).drop tokenNonceSize = c.aeadSeal nonce.bytes data := by
    rw [protect, ← nonce.length_eq, List.drop_left]
  have hlong : ¬ (c.protect nonce data).length < tokenNonceSize := by
    rw [protect, List.length_append, nonce.length_eq]
    exact Nat.not_lt.mpr (Nat.le_add_right _ _)
  rw [unprotect, if_neg hlong, htake, hdrop, c.aeadOpen_aeadSeal]

/-- The struct of a token, as it is decoded. -/
theorem TokenCrypto.decodeToken_protect (c : TokenCrypto) (nonce : TokenNonce) (t : TokenData) :
    c.decodeToken (c.protect nonce (c.marshal t)) = (tokenOf t).map some := by
  rw [decodeToken, if_neg (c.protect_ne_nil nonce _), c.unprotect_protect]
  dsimp only
  rw [c.unmarshal_marshal]

/-- **A token that was issued is decoded to what it was issued for.** -/
theorem IssuedToken.decodeToken_bytes (c : TokenCrypto) (i : IssuedToken) :
    c.decodeToken (i.bytes c) = .ok (some i.token) := by
  obtain ⟨nonce, time, remoteAddr, retry⟩ := i
  cases retry with
  | none => exact c.decodeToken_protect nonce _
  | some ids =>
    obtain ⟨orig, src⟩ := ids
    refine (c.decodeToken_protect nonce _).trans ?_
    have hshort : ¬ (maxConnIDLen < orig.bytes.length ∨ maxConnIDLen < src.bytes.length) := by
      rintro (hlong | hlong)
      · exact Nat.not_lt.mpr orig.le hlong
      · exact Nat.not_lt.mpr src.le hlong
    rw [TokenCrypto.tokenOf, if_neg Bool.noConfusion, if_neg hshort]
    rfl

end UQuic.Handshake
