/-
# `UQuic.HTTP3.Headers` — which header field lists become a request

`parseHeaders` and `requestFromHeaders` of `http3/headers.go`.  The loop keeps five things:

    limit                    what is left for the uncompressed field list
    readFirstRegularHeader   no pseudo header may follow
    readContentLength        a Content-Length was read, and
    contentLengthStr         its value
    hdr                      the last value of each pseudo header, and the other fields

Strings are their bytes.  What `httpguts`, `net/url` and the Unicode tables answer is given
(`Library`); `strconv.ParseUint` and the keys of `http.Header` are modelled.

## What is proved

`request_wellFormed_iff`: a list that is accepted is well formed iff it does not repeat a pseudo
header, no Content-Length is empty, and an empty `:protocol` comes with CONNECT.

## What is not

A later pseudo header overwrites an earlier one, an empty Content-Length is skipped by the
check of its value, and an empty `:protocol` is taken for none (`malformed_accepted`).
-/
import UQuic.Lib.Except

namespace UQuic.HTTP3

open List Except

/-! ## Strings -/

/-- A string, as its bytes. -/
abbrev Str := List UInt8

def lit (s : String) : Str := s.toList.map fun c => c.toNat.toUInt8

def isUpper (c : UInt8) : Bool := 65 ≤ c && c ≤ 90

def isDigit (c : UInt8) : Bool := 48 ≤ c && c ≤ 57

/-- `url.URL`; `rest` stands for the fields that are neither read nor written here. -/
structure URL where
  scheme : Str
  host : Str
  path : Str
  rest : Str
  deriving DecidableEq, Repr

/-- The functions of other packages: `httpguts.ValidHeaderFieldName` and `ValidHeaderFieldValue`,
`strings.Map(unicode.ToLower, s)` for strings that are not ASCII, and `url.ParseRequestURI`. -/
structure Library where
  validHeaderFieldName : Str → Bool
  validHeaderFieldValue : Str → Bool
  mapToLower : Str → Str
  /-- An ASCII capital letter is a rune of its own, and it is mapped. -/
  mapToLower_ne : ∀ s, (∃ c ∈ s, isUpper c = true) → mapToLower s ≠ s
  parseRequestURI : Str → Option URL

def Library.toLower (lib : Library) (s : Str) : Str :=
  if s.all (· < 128) then s.map fun c => if isUpper c then c + 32 else c else lib.mapToLower s

/-- The errors of `strconv.ParseUint`. -/
inductive NumError
  | malformed
  | range
  deriving DecidableEq, Repr

/-- The loop of `strconv.ParseUint`, for base 10 and 63 bits. -/
def parseUintLoop : Str → Nat → Except NumError Nat
  | [], n => .ok n
  | c :: rest, n =>
    if isDigit c = false then .error .malformed
    else if (2 ^ 64 - 1) / 10 + 1 ≤ n then .error .range
    else if 2 ^ 63 - 1 < n * 10 + (c.toNat - 48) then .error .range
    else parseUintLoop rest (n * 10 + (c.toNat - 48))

/-- `strconv.ParseUint`, for base 10 and 63 bits. -/
def parseUint (s : Str) : Except NumError Nat :=
  if s = [] then .error .malformed else parseUintLoop s 0

/-- The number that a string of digits stands for. -/
def decimal (s : Str) : Nat := s.foldl (fun n c => n * 10 + (c.toNat - 48)) 0

theorem parseUintLoop_ok {s : Str} : ∀ {n v : Nat}, n < 2 ^ 63 → parseUintLoop s n = .ok v →
    s.all isDigit = true ∧ s.foldl (fun n c => n * 10 + (c.toNat - 48)) n = v ∧ v < 2 ^ 63 := by
  induction s with
  | nil =>
    intro n v hn h
    cases h
    exact ⟨rfl, rfl, hn⟩
  | cons c rest ih =>
    intro n v hn h
    rw [parseUintLoop] at h
    split_ifs at h with hdigit _ hmax
    obtain ⟨hall, hfold, hv⟩ := ih (by omega) h
    refine ⟨?_, hfold, hv⟩
    rw [all_cons, hall, Bool.and_true]
    exact eq_true_of_ne_false hdigit

/-- **What `ParseUint` accepts is a decimal number below 2^63.** -/
theorem parseUint_ok {s : Str} {v : Nat} (h : parseUint s = .ok v) :
    s ≠ [] ∧ s.all isDigit = true ∧ decimal s = v ∧ v < 2 ^ 63 := by
  rw [parseUint] at h
  split_ifs at h with hne
  exact ⟨hne, parseUintLoop_ok (by decide) h⟩

/-- A name that `ToLower` does not change has no capital letter. -/
theorem Library.not_isUpper (lib : Library) {s : Str} (h : lib.toLower s = s) :
    ∀ c ∈ s, isUpper c = false := by
  intro c hc
  rw [toLower] at h
  cases hup : isUpper c with
  | false => rfl
  | true =>
    split at h
    · -- the letter itself was changed
      have heq := map_inj_left.mp (h.trans (map_id s).symm) c hc
      rw [if_pos hup] at heq
      simp at heq
    · exact absurd h (lib.mapToLower_ne s ⟨c, hc, hup⟩)

/-! ## Header fields -/

/-- `qpack.HeaderField`. -/
structure HeaderField where
  name : Str
  value : Str
  deriving DecidableEq, Repr

namespace HeaderField

/-- `IsPseudo`: the name starts with a colon. -/
def isPseudo (f : HeaderField) : Bool := f.name.head? == some 58

/-- The size of a field in RFC 9114, section 4.2.2. -/
def size (f : HeaderField) : Nat := f.name.length + f.value.length + 32

end HeaderField

/-- A byte of a token, in the table of `net/textproto`. -/
def validHeaderFieldByte (c : UInt8) : Bool :=
  isDigit c || isUpper c || (97 ≤ c && c ≤ 122) ||
    [33, 35, 36, 37, 38, 39, 42, 43, 45, 46, 94, 95, 96, 124, 126].contains c

/-- The loop of `canonicalMIMEHeaderKey`: a letter is a capital one at the start and after a
hyphen. -/
def canonicalLoop : Bool → Str → Str
  | _, [] => []
  | upper, c :: rest =>
    let c := if upper && 97 ≤ c && c ≤ 122 then c - 32
      else if !upper && isUpper c then c + 32 else c
    c :: canonicalLoop (c == 45) rest

def canonicalMIMEHeaderKey (key : Str) : Str :=
  if key.all validHeaderFieldByte then canonicalLoop true key else key

/-- `http.Header`: the values of each key. -/
abbrev Header := Str → List Str

def Header.add (h : Header) (key value : Str) : Header :=
  Function.update h (canonicalMIMEHeaderKey key) (h (canonicalMIMEHeaderKey key) ++ [value])

def Header.set (h : Header) (key value : Str) : Header :=
  Function.update h (canonicalMIMEHeaderKey key) [value]

/-- `header`. -/
structure ParsedHeader where
  path : Str
  method : Str
  authority : Str
  scheme : Str
  status : Str
  protocol : Str
  contentLength : Int
  headers : Header

/-- What is wrapped as an invalid content length: the error of `strconv.ParseUint`, and that of
`url.ParseRequestURI` for a request that is not CONNECT. -/
inductive WrappedError
  | number (e : NumError)
  | requestURI (path : Str)
  deriving DecidableEq, Repr

/-- The errors of `parseHeaders` and `requestFromHeaders`. -/
inductive HeaderError
  /-- `http3: header fields too large`. -/
  | tooLarge
  /-- `header field is not lower-case: %s`. -/
  | notLowerCase (name : Str)
  /-- `invalid header field value for %s: %q`. -/
  | invalidValue (name value : Str)
  /-- `received pseudo header %s after a regular header field`. -/
  | pseudoAfterRegular (name : Str)
  /-- `unknown pseudo header: %s`. -/
  | unknownPseudo (name : Str)
  /-- `invalid request pseudo header: %s`. -/
  | invalidRequestPseudo (name : Str)
  /-- `invalid response pseudo header: %s`. -/
  | invalidResponsePseudo (name : Str)
  /-- `invalid header field name: %q`. -/
  | invalidName (name : Str)
  /-- `invalid TE header field value: %q`. -/
  | invalidTE (value : Str)
  /-- `contradicting content lengths (%s and %s)`. -/
  | contradictingContentLengths (first value : Str)
  /-- `invalid content length: %w`. -/
  | invalidContentLength (e : WrappedError)
  /-- `extended CONNECT: :scheme, :path and :authority must not be empty`. -/
  | extendedConnect
  /-- `:path must be empty and :authority must not be empty`. -/
  | connect
  /-- `:path, :authority and :method must not be empty`. -/
  | missingPseudo
  /-- `:protocol must be empty`. -/
  | protocolNotEmpty
  /-- The error of `url.ParseRequestURI`, for CONNECT. -/
  | requestURI (path : Str)
  deriving DecidableEq, Repr

def invalidHeaderFields : List Str :=
  [lit "connection", lit "keep-alive", lit "proxy-connection", lit "transfer-encoding",
    lit "upgrade"]

/-! ## `parseHeaders` -/

/-- The variables of the loop. -/
structure ParseState where
  hdr : ParsedHeader
  limit : Int
  readFirstRegularHeader : Bool
  readContentLength : Bool
  contentLengthStr : Str

def ParseState.init (limit : Int) : ParseState :=
  ⟨⟨[], [], [], [], [], [], 0, fun _ => []⟩, limit, false, false, []⟩

/-- The switch over the pseudo headers. -/
def setPseudo (hdr : ParsedHeader) (f : HeaderField) : Option ParsedHeader :=
  if f.name = lit ":path" then some { hdr with path := f.value }
  else if f.name = lit ":method" then some { hdr with method := f.value }
  else if f.name = lit ":authority" then some { hdr with authority := f.value }
  else if f.name = lit ":protocol" then some { hdr with protocol := f.value }
  else if f.name = lit ":scheme" then some { hdr with scheme := f.value }
  else if f.name = lit ":status" then some { hdr with status := f.value }
  else none

/-- A pseudo header; `:status` is the one of responses. -/
def parsePseudo (isRequest : Bool) (st : ParseState) (f : HeaderField) :
    Except HeaderError ParseState :=
  if st.readFirstRegularHeader then .error (.pseudoAfterRegular f.name)
  else
    match setPseudo st.hdr f with
    | none => .error (.unknownPseudo f.name)
    | some hdr =>
      if isRequest = true ∧ f.name = lit ":status" then .error (.invalidRequestPseudo f.name)
      else if isRequest = false ∧ f.name ≠ lit ":status" then
        .error (.invalidResponsePseudo f.name)
      else .ok { st with hdr := hdr }

/-- The Content-Length is kept aside, any other field is added. -/
def addRegular (st : ParseState) (f : HeaderField) : Except HeaderError ParseState :=
  if f.name = lit "content-length" then
    if st.readContentLength = false then
      .ok { st with readContentLength := true, contentLengthStr := f.value }
    else if st.contentLengthStr ≠ f.value then
      .error (.contradictingContentLengths st.contentLengthStr f.value)
    else .ok st
  else .ok { st with hdr := { st.hdr with headers := st.hdr.headers.add f.name f.value } }

def parseRegular (lib : Library) (st : ParseState) (f : HeaderField) :
    Except HeaderError ParseState :=
  if lib.validHeaderFieldName f.name = false then .error (.invalidName f.name)
  else if f.name ∈ invalidHeaderFields then .error (.invalidName f.name)
  else if f.name = lit "te" ∧ f.value ≠ lit "trailers" then .error (.invalidTE f.value)
  else addRegular { st with readFirstRegularHeader := true } f

/-- The body of the loop. -/
def parseField (lib : Library) (isRequest : Bool) (st : ParseState) (f : HeaderField) :
    Except HeaderError ParseState :=
  if st.limit - f.size < 0 then .error .tooLarge
  else if lib.toLower f.name ≠ f.name then .error (.notLowerCase f.name)
  else if lib.validHeaderFieldValue f.value = false then .error (.invalidValue f.name f.value)
  else if f.isPseudo then parsePseudo isRequest { st with limit := st.limit - f.size } f
  else parseRegular lib { st with limit := st.limit - f.size } f

/-- After the loop: the Content-Length is parsed, -1 stands for none. -/
def finishHeader (st : ParseState) : Except HeaderError ParsedHeader :=
  if st.contentLengthStr = [] then .ok { st.hdr with contentLength := -1 }
  else
    match parseUint st.contentLengthStr with
    | .error e => .error (.invalidContentLength (.number e))
    | .ok cl => .ok
        { st.hdr with
          headers := st.hdr.headers.set (lit "Content-Length") st.contentLengthStr
          contentLength := cl }

def parseHeaders (lib : Library) (headers : List HeaderField) (isRequest : Bool) (limit : Int) :
    Except HeaderError ParsedHeader :=
  (headers.foldlM (parseField lib isRequest) (.init limit)).bind finishHeader

/-! ## `requestFromHeaders` -/

/-- `http.Request`, as far as it is filled in. -/
structure Request where
  method : Str
  url : URL
  proto : Str
  header : Header
  contentLength : Int
  host : Str
  requestURI : Str

def joinCookies (headers : Header) : Header :=
  if headers (lit "Cookie") = [] then headers
  else headers.set (lit "Cookie") ((headers (lit "Cookie")).intersperse (lit "; ")).flatten

/-- The pseudo headers that a request needs. -/
def checkPseudo (hdr : ParsedHeader) : Except HeaderError Unit :=
  if hdr.method = lit "CONNECT" ∧ hdr.protocol ≠ [] then
    if hdr.scheme = [] ∨ hdr.path = [] ∨ hdr.authority = [] then .error .extendedConnect
    else .ok ()
  else if hdr.method = lit "CONNECT" then
    if hdr.path ≠ [] ∨ hdr.authority = [] then .error .connect
    else if hdr.protocol ≠ [] then .error .protocolNotEmpty
    else .ok ()
  else if hdr.path = [] ∨ hdr.authority = [] ∨ hdr.method = [] then .error .missingPseudo
  else if hdr.protocol ≠ [] then .error .protocolNotEmpty
  else .ok ()

/-- The URL, the protocol and the request URI. -/
def requestTarget (lib : Library) (hdr : ParsedHeader) : Except HeaderError (URL × Str × Str) :=
  if hdr.method = lit "CONNECT" then
    if hdr.protocol ≠ [] then
      match lib.parseRequestURI hdr.path with
      | none => .error (.requestURI hdr.path)
      | some u => .ok ({ u with scheme := hdr.scheme, host := hdr.authority }, hdr.protocol,
          hdr.authority)
    else .ok (⟨hdr.scheme, hdr.authority, hdr.path, []⟩, lit "HTTP/3.0", hdr.authority)
  else
    match lib.parseRequestURI hdr.path with
    | none => .error (.invalidContentLength (.requestURI hdr.path))
    | some u => .ok (u, lit "HTTP/3.0", hdr.path)

def requestFromHeaders (lib : Library) (headerFields : List HeaderField) (limit : Int) :
    Except HeaderError Request := do
  let hdr ← parseHeaders lib headerFields true limit
  let hdr := { hdr with headers := joinCookies hdr.headers }
  checkPseudo hdr
  let (u, protocol, requestURI) ← requestTarget lib hdr
  return ⟨hdr.method, u, protocol, hdr.headers, hdr.contentLength, hdr.authority, requestURI⟩

/-! ## Well-formed lists -/

/-- The pseudo headers of requests. -/
def requestPseudoHeaders : List Str :=
  [lit ":method", lit ":scheme", lit ":path", lit ":authority", lit ":protocol"]

/-- What RFC 9114 asks of the field list of a request. -/
structure WellFormed (limit : Int) (fields : List HeaderField) : Prop where
  size : ((fields.map HeaderField.size).sum : Int) ≤ limit
  pseudoFirst : fields.Pairwise fun f g => g.isPseudo = true → f.isPseudo = true
  pseudoOnce : ((fields.filter HeaderField.isPseudo).map HeaderField.name).Nodup
  pseudoKnown : ∀ f ∈ fields, f.isPseudo = true → f.name ∈ requestPseudoHeaders
  lowerCase : ∀ f ∈ fields, ∀ c ∈ f.name, isUpper c = false
  connectionSpecific : ∀ f ∈ fields, f.name ∉ invalidHeaderFields
  te : ∀ f ∈ fields, f.name = lit "te" → f.value = lit "trailers"
  sameLength : ∀ f ∈ fields, ∀ g ∈ fields, f.name = lit "content-length" →
    g.name = lit "content-length" → f.value = g.value
  decimalLength : ∀ f ∈ fields, f.name = lit "content-length" →
    f.value ≠ [] ∧ f.value.all isDigit = true ∧ decimal f.value < 2 ^ 63
  protocol : ∀ f ∈ fields, f.name = lit ":protocol" → ⟨lit ":method", lit "CONNECT"⟩ ∈ fields

/-- The value of the last field of a name. -/
def lastValue (name : Str) (fields : List HeaderField) : Str :=
  fields.foldl (fun v f => if f.name = name then f.value else v) []

theorem lastValue_concat (name : Str) (fields : List HeaderField) (f : HeaderField) :
    lastValue name (fields ++ [f]) = if f.name = name then f.value else lastValue name fields := by
  rw [lastValue, foldl_append]
  rfl

theorem mem_of_lastValue_ne {name : Str} {fields : List HeaderField} :
    lastValue name fields ≠ [] → ⟨name, lastValue name fields⟩ ∈ fields := by
  induction fields using List.reverseRecOn with
  | nil =>
    intro h
    exact absurd rfl h
  | append_singleton fields f ih =>
    intro h
    rw [lastValue_concat] at h ⊢
    split_ifs at h with hname
    · rw [if_pos hname, ← hname]
      exact mem_append_right _ mem_cons_self
    · rw [if_neg hname]
      exact mem_append_left _ (ih h)

/-- The only field of its name is the last one. -/
theorem lastValue_eq {f : HeaderField} {fields : List HeaderField} :
    f ∈ fields → (∀ g ∈ fields, g.name = f.name → g = f) → lastValue f.name fields = f.value := by
  induction fields using List.reverseRecOn with
  | nil =>
    intro hf
    cases hf
  | append_singleton fields g ih =>
    intro hf hone
    rw [lastValue_concat]
    split_ifs with hname
    · rw [hone g (mem_append_right _ mem_cons_self) hname]
    · have hmem : f ∈ fields := by
        rcases mem_append.mp hf with hf | hf
        · exact hf
        · rw [mem_singleton.mp hf] at hname
          exact absurd rfl hname
      exact ih hmem fun g' hg' => hone g' (mem_append_left _ hg')

/-! ## The loop -/

/-- What the loop checks of one field of a request. -/
structure Checked (f : HeaderField) : Prop where
  lowerCase : ∀ c ∈ f.name, isUpper c = false
  pseudo : f.isPseudo = true → f.name ∈ requestPseudoHeaders
  regular : f.isPseudo = false → f.name ∉ invalidHeaderFields ∧
    (f.name = lit "te" → f.value = lit "trailers")

/-- What the loop knows after the fields `done`. -/
structure FieldsParsed (limit : Int) (done : List HeaderField) (st : ParseState) : Prop where
  limit_eq : st.limit = limit - (done.map HeaderField.size).sum
  limit_nonneg : done ≠ [] → 0 ≤ st.limit
  pseudoFirst : done.Pairwise fun f g => g.isPseudo = true → f.isPseudo = true
  allPseudo : st.readFirstRegularHeader = false → ∀ f ∈ done, f.isPseudo = true
  checked : ∀ f ∈ done, Checked f
  lengths : ∀ f ∈ done, f.name = lit "content-length" →
    st.readContentLength = true ∧ f.value = st.contentLengthStr
  method : st.hdr.method = lastValue (lit ":method") done
  protocol : st.hdr.protocol = lastValue (lit ":protocol") done

variable {lib : Library} {limit : Int} {done fields : List HeaderField} {st st' : ParseState}
  {f : HeaderField}

theorem fieldsParsed_init : FieldsParsed limit [] (.init limit) where
  limit_eq := (Int.sub_zero limit).symm
  limit_nonneg := fun h => absurd rfl h
  pseudoFirst := .nil
  allPseudo := fun _ => forall_mem_nil _
  checked := forall_mem_nil _
  lengths := forall_mem_nil _
  method := rfl
  protocol := rfl

/-- The switch writes the header of its name. -/
theorem setPseudo_eq_some {hdr hdr' : ParsedHeader} (h : setPseudo hdr f = some hdr') :
    (f.name = lit ":status" ∨ f.name ∈ requestPseudoHeaders) ∧
      (hdr'.method = if f.name = lit ":method" then f.value else hdr.method) ∧
      (hdr'.protocol = if f.name = lit ":protocol" then f.value else hdr.protocol) := by
  rw [setPseudo] at h
  -- in every case the name is known, and so are the headers that stay
  split_ifs at h with hname hname hname hname hname hname
  all_goals
    cases h
    rw [hname]
  · exact ⟨.inr (by decide), rfl, rfl⟩
  · exact ⟨.inr (by decide), rfl, rfl⟩
  · exact ⟨.inr (by decide), rfl, rfl⟩
  · exact ⟨.inr (by decide), rfl, rfl⟩
  · exact ⟨.inr (by decide), rfl, rfl⟩
  · exact ⟨.inl rfl, rfl, rfl⟩

/-- **A pseudo header that was accepted.** -/
theorem parsePseudo_ok (h : parsePseudo true st f = .ok st') :
    st.readFirstRegularHeader = false ∧ f.name ∈ requestPseudoHeaders ∧
      ∃ hdr, st' = { st with hdr := hdr } ∧
        (hdr.method = if f.name = lit ":method" then f.value else st.hdr.method) ∧
        (hdr.protocol = if f.name = lit ":protocol" then f.value else st.hdr.protocol) := by
  rw [parsePseudo] at h
  split at h
  · cases h
  · rename_i hregular
    cases hset : setPseudo st.hdr f with
    | none =>
      rw [hset] at h
      cases h
    | some hdr =>
      rw [hset] at h
      dsimp only at h
      obtain ⟨hname, hmethod, hprotocol⟩ := setPseudo_eq_some hset
      split at h
      · cases h
      · rename_i hstatus
        rw [if_neg (by simp)] at h
        cases h
        refine ⟨eq_false_of_ne_true hregular, ?_, hdr, rfl, hmethod, hprotocol⟩
        exact hname.resolve_left fun hn => hstatus ⟨rfl, hn⟩

/-- **A regular field that was accepted.** -/
theorem parseRegular_ok (h : parseRegular lib st f = .ok st') :
    f.name ∉ invalidHeaderFields ∧ (f.name = lit "te" → f.value = lit "trailers") ∧
      st'.limit = st.limit ∧ st'.readFirstRegularHeader = true ∧
      st'.hdr.method = st.hdr.method ∧ st'.hdr.protocol = st.hdr.protocol ∧
      (f.name = lit "content-length" →
        st'.readContentLength = true ∧ f.value = st'.contentLengthStr) ∧
      (st.readContentLength = true →
        st'.readContentLength = true ∧ st'.contentLengthStr = st.contentLengthStr) := by
  rw [parseRegular] at h
  split_ifs at h with _ hinvalid hte
  refine ⟨hinvalid, fun hname => by_contra fun hv => hte ⟨hname, hv⟩, ?_⟩
  rw [addRegular] at h
  split at h
  · split at h
    · rename_i hread
      cases h
      exact ⟨rfl, rfl, rfl, rfl, fun _ => ⟨rfl, rfl⟩, fun hr => by rw [hread] at hr; cases hr⟩
    · rename_i hread
      split_ifs at h with hsame
      cases h
      exact ⟨rfl, rfl, rfl, rfl, fun _ => ⟨eq_true_of_ne_false hread,
        (of_not_not hsame).symm⟩, fun hr => ⟨hr, rfl⟩⟩
  · rename_i hname
    cases h
    exact ⟨rfl, rfl, rfl, rfl, fun hn => absurd hn hname, fun hr => ⟨hr, rfl⟩⟩

/-- A regular name is none of the pseudo headers. -/
theorem name_ne_of_regular {s : Str} (hs : s.head? = some 58) (hf : f.isPseudo = false) :
    f.name ≠ s := by
  rintro rfl
  rw [HeaderField.isPseudo, hs] at hf
  cases hf

/-- **One field.** -/
theorem FieldsParsed.step (hp : FieldsParsed limit done st)
    (h : parseField lib true st f = .ok st') :
    FieldsParsed limit (done ++ [f]) st' := by
  rw [parseField] at h
  split at h
  · cases h
  · rename_i hlim
    split at h
    · cases h
    · rename_i hlower
      have hcaps := lib.not_isUpper (of_not_not hlower)
      split at h
      · cases h
      · have hsum : st.limit - f.size = limit - ((done ++ [f]).map HeaderField.size).sum := by
          rw [hp.limit_eq, map_append, sum_append]
          simp only [map_cons, map_nil, sum_cons, sum_nil]
          omega
        split_ifs at h with hpseudo
        · obtain ⟨hfirst, hknown, hdr, rfl, hmethod, hprotocol⟩ := parsePseudo_ok h
          have hall := hp.allPseudo hfirst
          constructor
          case limit_eq => exact hsum
          case limit_nonneg => exact fun _ => Int.not_lt.mp hlim
          case pseudoFirst =>
            refine pairwise_append.mpr ⟨hp.pseudoFirst, pairwise_singleton _ _, ?_⟩
            intro g hg _ _ _
            exact hall g hg
          case allPseudo =>
            intro _
            rw [forall_mem_append, forall_mem_singleton]
            exact ⟨hall, hpseudo⟩
          case checked =>
            rw [forall_mem_append, forall_mem_singleton]
            refine ⟨hp.checked, hcaps, fun _ => hknown, fun hregular => ?_⟩
            rw [hpseudo] at hregular
            cases hregular
          case lengths =>
            rw [forall_mem_append, forall_mem_singleton]
            refine ⟨hp.lengths, fun hname => ?_⟩
            rw [HeaderField.isPseudo, hname] at hpseudo
            exact absurd hpseudo (by decide)
          case method =>
            rw [lastValue_concat, ← hp.method]
            exact hmethod
          case protocol =>
            rw [lastValue_concat, ← hp.protocol]
            exact hprotocol
        · have hregular := eq_false_of_ne_true hpseudo
          obtain ⟨hinvalid, hte, hleft, hread, hmethod, hprotocol, hlen, hkept⟩ :=
            parseRegular_ok h
          constructor
          case limit_eq => exact hleft.trans hsum
          case limit_nonneg =>
            intro _
            rw [hleft]
            exact Int.not_lt.mp hlim
          case pseudoFirst =>
            refine pairwise_append.mpr ⟨hp.pseudoFirst, pairwise_singleton _ _, ?_⟩
            intro g _ f' hf' hpseudo'
            rw [mem_singleton.mp hf', hregular] at hpseudo'
            cases hpseudo'
          case allPseudo =>
            intro hfalse
            rw [hread] at hfalse
            cases hfalse
          case checked =>
            rw [forall_mem_append, forall_mem_singleton]
            exact ⟨hp.checked, hcaps, fun hp' => absurd hp' hpseudo, fun _ => ⟨hinvalid, hte⟩⟩
          case lengths =>
            rw [forall_mem_append, forall_mem_singleton]
            refine ⟨fun g hg hname => ?_, hlen⟩
            obtain ⟨hwas, hvalue⟩ := hp.lengths g hg hname
            obtain ⟨his, hsame⟩ := hkept hwas
            exact ⟨his, hvalue.trans hsame.symm⟩
          case method =>
            rw [lastValue_concat, if_neg (name_ne_of_regular (by decide) hregular), hmethod]
            exact hp.method
          case protocol =>
            rw [lastValue_concat, if_neg (name_ne_of_regular (by decide) hregular), hprotocol]
            exact hp.protocol

/-- After the loop, what was parsed stays, and a Content-Length that is not empty is a number. -/
theorem finishHeader_ok {hdr : ParsedHeader} (h : finishHeader st = .ok hdr) :
    hdr.method = st.hdr.method ∧ hdr.protocol = st.hdr.protocol ∧
      (st.contentLengthStr ≠ [] → st.contentLengthStr.all isDigit = true ∧
        decimal st.contentLengthStr < 2 ^ 63) := by
  rw [finishHeader] at h
  split_ifs at h with hempty
  · cases h
    exact ⟨rfl, rfl, fun hne => absurd hempty hne⟩
  · cases hparse : parseUint st.contentLengthStr with
    | error e =>
      rw [hparse] at h
      cases h
    | ok cl =>
      rw [hparse] at h
      cases h
      obtain ⟨-, hdigits, hvalue, hlt⟩ := parseUint_ok hparse
      exact ⟨rfl, rfl, fun _ => ⟨hdigits, hvalue.le.trans_lt hlt⟩⟩

/-- A request has a method, and `:protocol` comes with CONNECT. -/
theorem checkPseudo_ok {hdr : ParsedHeader} {u : Unit} (h : checkPseudo hdr = .ok u) :
    hdr.method ≠ [] ∧ (hdr.protocol ≠ [] → hdr.method = lit "CONNECT") := by
  rw [checkPseudo] at h
  split at h
  · rename_i hextended
    refine ⟨?_, fun _ => hextended.1⟩
    rw [hextended.1]
    decide
  · split at h
    · rename_i hconnect
      refine ⟨?_, fun _ => hconnect⟩
      rw [hconnect]
      decide
    · split_ifs at h with hmissing hprotocol
      exact ⟨fun hm => hmissing (.inr (.inr hm)), fun hp => absurd hp hprotocol⟩

/-- The steps of a request that was accepted. -/
theorem requestFromHeaders_ok {r : Request} (h : requestFromHeaders lib fields limit = .ok r) :
    ∃ st hdr, FieldsParsed limit fields st ∧ finishHeader st = .ok hdr ∧ hdr.method ≠ [] ∧
      (hdr.protocol ≠ [] → hdr.method = lit "CONNECT") := by
  obtain ⟨hdr, hparse, h⟩ := bind_eq_ok_iff.mp h
  obtain ⟨st, hloop, hfinish⟩ := bind_eq_ok_iff.mp hparse
  obtain ⟨u, hcheck, -⟩ := bind_eq_ok_iff.mp h
  obtain ⟨hmethod, hprotocol⟩ := checkPseudo_ok hcheck
  refine ⟨st, hdr, ?_, hfinish, hmethod, hprotocol⟩
  exact foldlM_snoc (J := FieldsParsed limit) (fun done f st st' hp hstep => hp.step hstep)
    fieldsParsed_init hloop

/-! ## Requests -/

/-- A pseudo header that does not repeat is the only field of its name. -/
theorem eq_of_pseudoOnce (hone : ((fields.filter HeaderField.isPseudo).map HeaderField.name).Nodup)
    (hf : f ∈ fields) (hpseudo : f.isPseudo = true) : ∀ g ∈ fields, g.name = f.name → g = f := by
  intro g hg hname
  have hpseudo' : g.isPseudo = true := by
    rw [HeaderField.isPseudo, hname]
    exact hpseudo
  exact inj_on_of_nodup_map hone (mem_filter.mpr ⟨hg, hpseudo'⟩)
    (mem_filter.mpr ⟨hf, hpseudo⟩) hname

/-- **Only well-formed field lists become a request**, iff no pseudo header is repeated, no
Content-Length is empty, and an empty `:protocol` comes with CONNECT. -/
theorem request_wellFormed_iff {r : Request} (h : requestFromHeaders lib fields limit = .ok r) :
    WellFormed limit fields ↔
      ((fields.filter HeaderField.isPseudo).map HeaderField.name).Nodup ∧
      (∀ f ∈ fields, f.name = lit "content-length" → f.value ≠ []) ∧
      (⟨lit ":protocol", []⟩ ∈ fields → ⟨lit ":method", lit "CONNECT"⟩ ∈ fields) := by
  refine ⟨fun hwell => ⟨hwell.pseudoOnce, fun f hf hname => (hwell.decimalLength f hf hname).1,
    fun hmem => hwell.protocol _ hmem rfl⟩, ?_⟩
  rintro ⟨hone, hlength, hprotocol⟩
  obtain ⟨st, hdr, hp, hfin, hmethod, hconnect⟩ := requestFromHeaders_ok h
  obtain ⟨hm, hproto, hdigits⟩ := finishHeader_ok hfin
  rw [hm, hp.method] at hmethod
  have hmem := mem_of_lastValue_ne hmethod
  constructor
  case size =>
    have hlimit := hp.limit_nonneg (ne_nil_of_mem hmem)
    rw [hp.limit_eq] at hlimit
    exact Int.sub_nonneg.mp hlimit
  case pseudoFirst => exact hp.pseudoFirst
  case pseudoOnce => exact hone
  case pseudoKnown => exact fun f hf => (hp.checked f hf).pseudo
  case lowerCase => exact fun f hf => (hp.checked f hf).lowerCase
  case connectionSpecific =>
    intro f hf
    cases hpseudo : f.isPseudo with
    | false => exact ((hp.checked f hf).regular hpseudo).1
    | true =>
      -- no pseudo header is in the list
      have hdisjoint : ∀ s ∈ requestPseudoHeaders, s ∉ invalidHeaderFields := by decide
      exact hdisjoint f.name ((hp.checked f hf).pseudo hpseudo)
  case te =>
    intro f hf hname
    have hreg : f.isPseudo = false := by
      rw [HeaderField.isPseudo, hname]
      decide
    exact ((hp.checked f hf).regular hreg).2 hname
  case sameLength =>
    intro f hf g hg hname hname₂
    exact (hp.lengths f hf hname).2.trans (hp.lengths g hg hname₂).2.symm
  case decimalLength =>
    intro f hf hname
    have hne := hlength f hf hname
    rw [(hp.lengths f hf hname).2] at hne ⊢
    exact ⟨hne, hdigits hne⟩
  case protocol =>
    intro f hf hname
    have hpseudo : f.isPseudo = true := by
      rw [HeaderField.isPseudo, hname]
      decide
    by_cases hempty : f.value = []
    · refine hprotocol ?_
      rw [← hname, ← hempty]
      exact hf
    · have hval := lastValue_eq hf (eq_of_pseudoOnce hone hf hpseudo)
      rw [hname] at hval
      have hset : hdr.protocol ≠ [] := by
        rw [hproto, hp.protocol, hval]
        exact hempty
      rw [← hconnect hset, hm, hp.method]
      exact hmem

/-- The rules of `httpguts`, and a URL that is its path. -/
def asciiLibrary : Library where
  validHeaderFieldName s := !s.isEmpty && s.all validHeaderFieldByte
  validHeaderFieldValue s := s.all fun c => c == 9 || (32 ≤ c && c != 127)
  mapToLower s := 0 :: s
  mapToLower_ne s _ h := absurd (congrArg List.length h) (by simp)
  parseRequestURI s := if s.head? = some 47 then some ⟨[], [], s, []⟩ else none

def field (name value : String) : HeaderField := ⟨lit name, lit value⟩

def connectFields : List HeaderField :=
  [field ":method" "CONNECT", field ":protocol" "", field ":authority" "example",
    field "content-length" "12", field "te" "trailers"]

/-- An empty `:protocol` with CONNECT. -/
theorem request_wellFormed_iff_connect : WellFormed 300 connectFields := by
  obtain ⟨r, hr⟩ : ∃ r, requestFromHeaders asciiLibrary connectFields 300 = .ok r := ⟨_, rfl⟩
  exact (request_wellFormed_iff hr).mpr ⟨by decide, by decide, by decide⟩

/-- **Lists that are not well formed are accepted**: a repeated `:path`, an empty Content-Length
and an empty `:protocol` without CONNECT. -/
theorem malformed_accepted :
    let get := [field ":method" "GET", field ":path" "/a", field ":authority" "example"]
    ∀ fields ∈ [get ++ [field ":path" "/b"], get ++ [field "content-length" ""],
        get ++ [field ":protocol" ""]],
      (requestFromHeaders asciiLibrary fields 300).toOption.isSome = true ∧
        ¬ WellFormed 300 fields := by
  intro get
  simp only [forall_mem_cons]
  refine ⟨⟨rfl, fun h => ?_⟩, ⟨rfl, fun h => ?_⟩, ⟨rfl, fun h => ?_⟩, forall_mem_nil _⟩
  · exact absurd h.pseudoOnce (by decide)
  · exact absurd (h.decimalLength (field "content-length" "") (by decide) rfl).1 (by decide)
  · exact absurd (h.protocol (field ":protocol" "") (by decide) rfl) (by decide)

end UQuic.HTTP3
