/-
# `UQuic.Server` — which Initial packets create a connection, and with what

`handleInitialImpl` of `server.go`, with `validateToken`.  An Initial packet is

    handed     to the connection that exists by now
    rejected   with INVALID_TOKEN, a Retry or CONNECTION_REFUSED, or dropped
    accepted   `newConn` is called, with arguments that depend on the token

What the server is told by others in between is an input (`Answers`): the connection map, the
time, what `VerifySourceAddress` and `GetConfigForClient` answer, the new connection ID.  The
0-RTT queues and the packets that are sent in answer are left out.

## What is proved

Tokens are issued and Initial packets arrive in any order.  The AEAD is ideal: a token that is
decoded was issued before (`Genuine`).  Then for every connection (`addressValidation_sound`)

    verified address    the token was issued for it, not longer ago than its kind allows
    Retry token         it is valid, and the connection IDs are those it was issued for
    another or none     the connection IDs are that of the packet, and nil

## How

`handleInitialImpl_newConn` says that `newConn` gets what `checkToken` found, and
`checkToken_some` what that is.  Issued tokens only grow, so it stays true.
-/
import UQuic.Handshake.TokenGenerator
import UQuic.Lib.Machine

namespace UQuic

open Handshake (Addr Token TokenCrypto IssuedToken encodeRemoteAddr)
open Wire (Header)

/-- An Initial packet, with the address it came from. -/
structure InitialPacket where
  remoteAddr : Addr
  hdr : Header
  deriving DecidableEq, Repr

def minConnectionIDLenInitial : Nat := 8

/-- The settings of a server that are read here. -/
structure ServerConfig where
  maxTokenAge : Int
  handshakeIdleTimeout : Int

def ServerConfig.maxRetryTokenAge (cfg : ServerConfig) : Int := 2 * cfg.handshakeIdleTimeout

/-- What the server is told while it handles a packet. -/
structure Answers where
  /-- The connection map has the destination connection ID. -/
  connExists : Bool
  now : Int
  verifySourceAddress : Bool
  /-- `GetConfigForClient` returned an error or an invalid configuration. -/
  refused : Bool
  /-- `none` if `GenerateConnectionID` fails. -/
  connID : Option (List UInt8)

/-- The arguments of `newConn`. -/
structure ServerConn where
  origDestConnID : List UInt8
  retrySrcConnID : Option (List UInt8)
  clientDestConnID : List UInt8
  destConnID : List UInt8
  srcConnID : List UInt8
  clientAddrVerified : Bool
  version : Nat
  deriving DecidableEq, Repr

/-- What becomes of an Initial packet. -/
inductive InitialOutcome
  /-- `too short connection ID`. -/
  | tooShortConnectionID
  | handed
  | invalidToken
  | retry
  | connectionRefused
  | noConnectionID
  | newConn (conn : ServerConn)
  deriving DecidableEq, Repr

/-! ## Handling a packet -/

def validateToken (cfg : ServerConfig) (now : Int) (token : Token) (addr : Addr) : Bool :=
  if token.validateRemoteAddr addr = false then false
  else if token.isRetryToken = false ∧ cfg.maxTokenAge < now - token.sentTime then false
  else if token.isRetryToken = true ∧ cfg.maxRetryTokenAge < now - token.sentTime then false
  else true

/-- The variables of `handleInitialImpl` after the token was looked at. -/
structure TokenCheck where
  token : Option Token
  origDestConnID : List UInt8
  retrySrcConnID : Option (List UInt8)
  clientAddrVerified : Bool

/-- The token of an Initial packet, if it can be decoded. -/
def tokenIn (crypto : TokenCrypto) (hdr : Header) : Option Token :=
  if hdr.token = [] then none
  else
    match crypto.decodeToken hdr.token with
    | .ok token => token
    | .error _ => none

/-- The part of `handleInitialImpl` about the token; `none` if INVALID_TOKEN is sent. -/
def checkToken (crypto : TokenCrypto) (cfg : ServerConfig) (now : Int) (p : InitialPacket) :
    Option TokenCheck :=
  match tokenIn crypto p.hdr with
  | none => some ⟨none, p.hdr.destConnectionID, none, false⟩
  | some token =>
    let orig := if token.isRetryToken then token.originalDestConnectionID
      else p.hdr.destConnectionID
    let src := if token.isRetryToken then some token.retrySrcConnectionID else none
    if validateToken cfg now token p.remoteAddr then some ⟨some token, orig, src, true⟩
    -- a token of a NEW_TOKEN frame is ignored if it is not valid
    else if token.isRetryToken = false then some ⟨none, orig, src, false⟩
    else none

def handleInitialImpl (crypto : TokenCrypto) (cfg : ServerConfig) (p : InitialPacket)
    (a : Answers) : InitialOutcome :=
  if p.hdr.token = [] ∧ p.hdr.destConnectionID.length < minConnectionIDLenInitial then
    .tooShortConnectionID
  else if a.connExists then .handed
  else
    match checkToken crypto cfg a.now p with
    | none => .invalidToken
    | some check =>
      if check.token = none ∧ a.verifySourceAddress then .retry
      else if a.refused then .connectionRefused
      else
        match a.connID with
        | none => .noConnectionID
        | some connID => .newConn
            ⟨check.origDestConnID, check.retrySrcConnID, p.hdr.destConnectionID,
              p.hdr.srcConnectionID, connID, check.clientAddrVerified, p.hdr.version⟩

/-! ## The server as a machine -/

/-- A connection, with the packet and the time it was created from. -/
structure Accepted where
  packet : InitialPacket
  now : Int
  conn : ServerConn

/-- `baseServer`: the tokens that its generator returned, and the connections it created. -/
structure BaseServer where
  issued : List IssuedToken
  conns : List Accepted

namespace BaseServer

/-- A token is issued, for a Retry or by a connection, or an Initial packet is handled. -/
inductive Event
  | issue (i : IssuedToken)
  | packet (p : InitialPacket) (a : Answers)

def step (crypto : TokenCrypto) (cfg : ServerConfig) (s : BaseServer) : Event → Option BaseServer
  | .issue i => some { s with issued := s.issued ++ [i] }
  | .packet p a =>
    match handleInitialImpl crypto cfg p a with
    | .newConn conn => some { s with conns := s.conns ++ [⟨p, a.now, conn⟩] }
    | _ => some s

def machine (crypto : TokenCrypto) (cfg : ServerConfig) : Machine BaseServer Event :=
  .ofStep ⟨[], []⟩ (step crypto cfg)

/-- The AEAD is ideal: a token that is decoded was issued. -/
def Genuine (crypto : TokenCrypto) (s : BaseServer) : Event → Prop
  | .issue _ => True
  | .packet p _ => ∀ t, crypto.decodeToken p.hdr.token = .ok (some t) →
      ∃ i ∈ s.issued, i.bytes crypto = p.hdr.token

end BaseServer

/-- How old a token may be. -/
def maxAge (cfg : ServerConfig) (i : IssuedToken) : Int :=
  if i.retry.isSome then cfg.maxRetryTokenAge else cfg.maxTokenAge

/-- A connection was created as its token says. -/
structure Validated (crypto : TokenCrypto) (cfg : ServerConfig) (issued : List IssuedToken)
    (c : Accepted) : Prop where
  verified : c.conn.clientAddrVerified = true → ∃ i ∈ issued,
    i.bytes crypto = c.packet.hdr.token ∧
      encodeRemoteAddr i.remoteAddr = encodeRemoteAddr c.packet.remoteAddr ∧
      c.now - i.time ≤ maxAge cfg i
  retry : ∀ (i : IssuedToken) orig src, i.bytes crypto = c.packet.hdr.token →
    i.retry = some (orig, src) →
    c.conn.origDestConnID = orig.bytes ∧ c.conn.retrySrcConnID = some src.bytes ∧
      validateToken cfg c.now i.token c.packet.remoteAddr = true
  other : (∀ i ∈ issued, i.bytes crypto = c.packet.hdr.token → i.retry = none) →
    c.conn.origDestConnID = c.packet.hdr.destConnectionID ∧ c.conn.retrySrcConnID = none

/-! ## One packet -/

variable {crypto : TokenCrypto} {cfg : ServerConfig} {p : InitialPacket} {a : Answers}
  {i : IssuedToken} {conn : ServerConn} {check : TokenCheck} {now : Int}

theorem handleInitialImpl_newConn (h : handleInitialImpl crypto cfg p a = .newConn conn) :
    ∃ check, checkToken crypto cfg a.now p = some check ∧
      conn.origDestConnID = check.origDestConnID ∧ conn.retrySrcConnID = check.retrySrcConnID ∧
      conn.clientAddrVerified = check.clientAddrVerified := by
  rw [handleInitialImpl] at h
  split at h
  · cases h
  · split at h
    · cases h
    · split at h
      · cases h
      · rename_i check hcheck
        split_ifs at h
        split at h
        · cases h
        · cases h
          exact ⟨check, hcheck, rfl, rfl, rfl⟩

/-- What the check says of a token that was decoded. -/
theorem checkToken_some {token : Token} (htok : tokenIn crypto p.hdr = some token)
    (h : checkToken crypto cfg now p = some check) :
    check.clientAddrVerified = validateToken cfg now token p.remoteAddr ∧
      (token.isRetryToken = true → check.clientAddrVerified = true ∧
        check.origDestConnID = token.originalDestConnectionID ∧
        check.retrySrcConnID = some token.retrySrcConnectionID) ∧
      (token.isRetryToken = false → check.origDestConnID = p.hdr.destConnectionID ∧
        check.retrySrcConnID = none) := by
  rw [checkToken, htok] at h
  cases hkind : token.isRetryToken with
  | true =>
    simp only [hkind, if_true, Bool.true_eq_false, if_false] at h
    split_ifs at h with hvalid
    cases h
    exact ⟨hvalid.symm, fun _ => ⟨rfl, rfl, rfl⟩, by rintro ⟨⟩⟩
  | false =>
    simp only [hkind, if_true, Bool.false_eq_true, if_false] at h
    split_ifs at h with hvalid
    · cases h
      exact ⟨hvalid.symm, by rintro ⟨⟩, fun _ => ⟨rfl, rfl⟩⟩
    · cases h
      exact ⟨(Bool.eq_false_iff.mpr hvalid).symm, by rintro ⟨⟩, fun _ => ⟨rfl, rfl⟩⟩

/-- An issued token in a packet is found there. -/
theorem tokenIn_bytes {hdr : Header} (h : i.bytes crypto = hdr.token) :
    tokenIn crypto hdr = some i.token := by
  have hdec := i.decodeToken_bytes crypto
  rw [h] at hdec
  rw [tokenIn, hdec]
  split_ifs with hnil
  · rw [hnil] at hdec
    cases hdec
  · rfl

theorem decodeToken_of_tokenIn {hdr : Header} {token : Token}
    (h : tokenIn crypto hdr = some token) :
    crypto.decodeToken hdr.token = .ok (some token) := by
  rw [tokenIn] at h
  split_ifs at h
  split at h
  · rename_i hdec
    rw [hdec, h]
  · cases h

theorem validateToken_token {addr : Addr} (h : validateToken cfg now i.token addr = true) :
    encodeRemoteAddr i.remoteAddr = encodeRemoteAddr addr ∧ now - i.time ≤ maxAge cfg i := by
  rw [validateToken] at h
  split_ifs at h with haddr hage hretry
  refine ⟨?_, ?_⟩
  · have heq := Bool.eq_true_of_not_eq_false haddr
    exact (beq_iff_eq.mp heq).symm
  · rw [maxAge]
    have hsent : i.token.sentTime = i.time := rfl
    have his : i.token.isRetryToken = i.retry.isSome := rfl
    rw [hsent, his] at hage hretry
    split_ifs with hsome
    · exact Int.not_lt.mp fun hlt => hretry ⟨hsome, hlt⟩
    · exact Int.not_lt.mp fun hlt => hage ⟨Bool.eq_false_iff.mpr hsome, hlt⟩

/-- **One packet that creates a connection.** -/
theorem validated_newConn {issued : List IssuedToken}
    (hgenuine : ∀ t, crypto.decodeToken p.hdr.token = .ok (some t) →
      ∃ i ∈ issued, i.bytes crypto = p.hdr.token)
    (h : handleInitialImpl crypto cfg p a = .newConn conn) :
    Validated crypto cfg issued ⟨p, a.now, conn⟩ := by
  obtain ⟨check, hcheck, horig, hsrc, hversion⟩ := handleInitialImpl_newConn h
  cases htok : tokenIn crypto p.hdr with
  | none =>
    rw [checkToken, htok] at hcheck
    cases hcheck
    refine ⟨fun hv => ?_, fun j orig src hj _ => ?_, fun _ => ⟨horig, hsrc⟩⟩
    · cases hversion.symm.trans hv
    · cases htok.symm.trans (tokenIn_bytes hj)
  | some token =>
    obtain ⟨i, hi, hbytes⟩ := hgenuine token (decodeToken_of_tokenIn htok)
    cases htok.symm.trans (tokenIn_bytes hbytes)
    obtain ⟨hvalid, hretry, hother⟩ := checkToken_some htok hcheck
    refine ⟨fun hv => ⟨i, hi, hbytes, ?_⟩, fun j orig src hj hr => ?_, fun hno => ?_⟩
    · exact validateToken_token (hvalid.symm.trans (hversion.symm.trans hv))
    · -- all tokens with these bytes are decoded to the same
      have hsame : j.token = i.token :=
        Option.some.inj ((tokenIn_bytes hj).symm.trans (tokenIn_bytes hbytes))
      have htoken : j.token = ⟨true, j.time, encodeRemoteAddr j.remoteAddr,
          orig.bytes, src.bytes⟩ := by
        rw [IssuedToken.token, hr]
        rfl
      rw [← hsame] at hretry hvalid
      obtain ⟨hv, ho, hs⟩ := hretry (by rw [htoken])
      rw [htoken] at ho hs
      exact ⟨horig.trans ho, hsrc.trans hs, hvalid.symm.trans hv⟩
    · obtain ⟨ho, hs⟩ := hother (by rw [IssuedToken.token, hno i hi hbytes]; rfl)
      exact ⟨horig.trans ho, hsrc.trans hs⟩

theorem Validated.mono {issued issued' : List IssuedToken} {c : Accepted}
    (h : Validated crypto cfg issued c) (hsub : ∀ i ∈ issued, i ∈ issued') :
    Validated crypto cfg issued' c := by
  refine ⟨fun hv => ?_, h.retry, fun hno => h.other fun i hi => hno i (hsub i hi)⟩
  obtain ⟨i, hi, hrest⟩ := h.verified hv
  exact ⟨i, hsub i hi, hrest⟩

/-! ## Every run -/

namespace BaseServer

/-- **Address validation is sound.**  Tokens are issued and Initial packets arrive in any order.
For every connection that was created: its address counts as verified only if the token of the
packet was issued for an address that is encoded the same, at most `maxTokenAge` or
`maxRetryTokenAge` ago; a Retry token is valid then, and the connection IDs are those it was
issued for; otherwise they are the destination connection ID of the packet and nil. -/
theorem addressValidation_sound {tr : List Event} {s : BaseServer}
    (hrun : ((machine crypto cfg).guard (Genuine crypto)).Run tr s) :
    ∀ c ∈ s.conns, Validated crypto cfg s.issued c := by
  refine Machine.Run.stable
    (I := fun s => ∀ c ∈ s.conns, Validated crypto cfg s.issued c) ?_ ?_ hrun
  · rintro s rfl c ⟨⟩
  · rintro s e s' hvalid ⟨hgenuine, hstep⟩
    cases e with
    | issue i =>
      cases hstep
      exact fun c hc => (hvalid c hc).mono fun j hj => List.mem_append_left _ hj
    | packet p a =>
      have hstep : step crypto cfg s (.packet p a) = some s' := hstep
      rw [step] at hstep
      split at hstep
      · rename_i conn hnew
        cases hstep
        refine fun c hc => (List.mem_append.mp hc).elim (hvalid c) fun hc => ?_
        rw [List.mem_singleton.mp hc]
        exact validated_newConn hgenuine hnew
      · cases hstep
        exact hvalid

/-- A Retry token, and the Initial packet that brings it back from another port. -/
theorem addressValidation_sound_retry :
    ∃ (crypto : TokenCrypto) (i : IssuedToken) (p : InitialPacket) (s : BaseServer),
      ((machine crypto ⟨100, 5⟩).guard (Genuine crypto)).Run
        [.issue i, .packet p ⟨false, 15, true, false, some [4]⟩] s ∧
      s.conns.map (·.conn) = [⟨[1, 2], some [3], [3], [9], [4], true, 1⟩] ∧
      ∀ c ∈ s.conns, Validated crypto ⟨100, 5⟩ s.issued c := by
  obtain ⟨crypto⟩ : Nonempty TokenCrypto := inferInstance
  obtain ⟨i, hi⟩ : ∃ i : IssuedToken, i = ⟨⟨List.replicate 32 7, rfl⟩, 5, .udp [10, 0, 0, 1] 443,
    some (⟨[1, 2], by decide⟩, ⟨[3], by decide⟩)⟩ := ⟨_, rfl⟩
  obtain ⟨p, hp⟩ : ∃ p : InitialPacket, p = ⟨.udp [10, 0, 0, 1] 444, some .initial, 1, [9], [3], 0,
    i.bytes crypto, 0⟩ := ⟨_, rfl⟩
  have htok : i.bytes crypto = p.hdr.token := by rw [hp]
  have hnew : handleInitialImpl crypto ⟨100, 5⟩ p ⟨false, 15, true, false, some [4]⟩ =
      .newConn ⟨[1, 2], some [3], [3], [9], [4], true, 1⟩ := by
    have hne : p.hdr.token ≠ [] := by
      rw [← htok, hi]
      exact crypto.protect_ne_nil _ _
    rw [handleInitialImpl, if_neg (fun h => hne h.1), checkToken, tokenIn_bytes htok, hp, hi]
    rfl
  have hinit : ((machine crypto ⟨100, 5⟩).guard (Genuine crypto)).Run [] ⟨[], []⟩ := .init rfl
  have hissue : ((machine crypto ⟨100, 5⟩).guard (Genuine crypto)).Run [.issue i] ⟨[i], []⟩ :=
    hinit.step ⟨trivial, rfl⟩
  have hrun : ((machine crypto ⟨100, 5⟩).guard (Genuine crypto)).Run
      [.issue i, .packet p ⟨false, 15, true, false, some [4]⟩]
      ⟨[i], [⟨p, 15, [1, 2], some [3], [3], [9], [4], true, 1⟩]⟩ := by
    refine .step hissue ⟨fun _ _ => ⟨i, List.mem_singleton_self i, htok⟩, ?_⟩
    show step crypto ⟨100, 5⟩ _ _ = _
    rw [step, hnew]
    rfl
  exact ⟨crypto, i, p, _, hrun, rfl, addressValidation_sound hrun⟩

end BaseServer

end UQuic
