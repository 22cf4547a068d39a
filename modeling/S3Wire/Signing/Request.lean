/-
# `S3Wire.Signing.Request` — what a signature covers

`src/signing/request/common.rs`, `header.rs` and `src/signing/crypto.rs`.

The canonical request is six fields separated by newlines, one of them a block
of header lines closed by an empty line.  A signature covers the hash of that
text, so two requests with the same text share a signature;
`canonicalRequest_determines` says how much they then have in common.

The hash and the keyed hash are parameters (`Crypto`); a key of any length is
accepted, so deriving a key does not fail.  The clock is read as a date in UTC,
and formatting one with a fixed description does not fail.
-/
import S3Wire.Operation.Multipart
import S3Wire.Signing.Canonical

namespace S3Wire

/-! ## Inputs -/

/-- What of the credentials a signature is made with. -/
structure SigningCredentials where
  accessKeyId : Str
  secretAccessKey : Bytes
  sessionToken : Option Str

/-- The region and the service that a signature is for. -/
structure SigningScope where
  region : Str
  service : Str

/-- The hash and the keyed hash of another library. -/
structure Crypto where
  sha : Sha256
  hmac : Bytes → Bytes → Bytes

/-- The functions themselves, to run the model with. -/
def standardCrypto : Crypto := ⟨standardSha256, Lib.hmacSha256⟩

/-- A date and time in UTC. -/
structure DateTime where
  year : Int
  month : Nat
  day : Nat
  hour : Nat
  minute : Nat
  second : Nat

/-- `method`, `uri_path`, `query`, `headers` and `payload_hash`; outside of
tests the path is always an encoded one. -/
structure HeaderSigningRequest where
  method : Str
  uriPath : Str
  query : List QueryParam
  headers : List Header
  payloadHash : Str

/-- The headers that a signed request carries. -/
structure HeaderSigningOutput where
  authorization : Str
  amzDate : Str
  securityToken : Option Str

/-! ## Validation -/

def isScopeChar (c : Char) : Bool := c.isAlphanum || c == '-' || c == '_'

def validScopeComponent (value : Str) : Bool :=
  !value.isEmpty && value.all isScopeChar

def isMethodChar (c : Char) : Bool := c.isUpper || c.isDigit || c == '-'

/-- What both signers check first. -/
def validateCommon (credentials : SigningCredentials) (scope : SigningScope)
    (method : Str) :
    Except SigningError Unit :=
  if credentials.secretAccessKey.isEmpty || credentials.accessKeyId.isEmpty ||
      !credentials.accessKeyId.all isScopeChar then .error .invalidCredentials
  else if credentials.sessionToken.any List.isEmpty then
    .error .invalidCredentials
  else if !validScopeComponent scope.region ||
    !validScopeComponent scope.service then
    .error .invalidScope
  else if method.isEmpty || !method.all isMethodChar then .error .invalidMethod
  else .ok ()

theorem validateCommon_ok {credentials : SigningCredentials}
    {scope : SigningScope} {method : Str}
    (h : validateCommon credentials scope method = .ok ()) :
    (∀ c ∈ credentials.accessKeyId, isScopeChar c = true) ∧
    (∀ c ∈ scope.region, isScopeChar c = true) ∧
      (∀ c ∈ scope.service, isScopeChar c = true) ∧
      ∀ c ∈ method, isMethodChar c = true := by
  unfold validateCommon at h
  split at h
  · cases h
  next hkey =>
  split at h
  · cases h
  split at h
  · cases h
  next hscope =>
  split at h
  · cases h
  next hmethod =>
  simp only [Bool.or_eq_true, Bool.not_eq_true', not_or, Bool.not_eq_false,
    validScopeComponent,
    Bool.and_eq_true, List.all_eq_true] at hkey hscope hmethod
  exact ⟨hkey.2, hscope.1.2, hscope.2.2, hmethod.2⟩

def unsignedPayload : Str := "UNSIGNED-PAYLOAD"

def payloadLiterals : List Str :=
  [unsignedPayload, "STREAMING-AWS4-HMAC-SHA256-PAYLOAD",
    "STREAMING-AWS4-HMAC-SHA256-PAYLOAD-TRAILER",
      "STREAMING-UNSIGNED-PAYLOAD-TRAILER"]

def isLowerHexChar (c : Char) : Bool := c.isDigit || ('a' ≤ c && c ≤ 'f')

/-- A digest in lower case, or one of the literals. -/
def validatePayloadHash (payloadHash : Str) : Except SigningError Unit :=
  let isSha256 := payloadHash.len == 64 && payloadHash.all isLowerHexChar
  let isSupportedLiteral := payloadLiterals.contains payloadHash
  if isSha256 || isSupportedLiteral then .ok () else .error .invalidPayloadHash

def eqIgnoreAsciiCase (a b : Str) : Bool :=
  toAsciiLowercase a == toAsciiLowercase b

def reservedHeaders : List Str :=
  ["authorization", "x-amz-date", "x-amz-security-token"]

/-- What the signer adds itself, a caller cannot. -/
def rejectReservedHeaders (headers : List Header) : Except SigningError Unit :=
  if headers.any fun header =>
    reservedHeaders.any (eqIgnoreAsciiCase header.name) then
    .error .reservedHeader
  else .ok ()

/-! ## The canonical request and its signature -/

/-- The text whose digest is signed. -/
def buildCanonicalRequest (method uriPath : Str) (query : List QueryParam)
    (headers : CanonicalHeaders) (payloadHash : Str) :
    Except SigningError Str :=
  (canonicalUriFromEncoded uriPath).map fun uri =>
    method ++ '\n' :: (uri ++ '\n' :: (canonicalQuery query ++ '\n' ::
      (headers.canonical ++ '\n' :: (headers.signed ++ '\n' :: payloadHash))))

def lowerHexDigit (n : Nat) : Char := "0123456789abcdef".toList.getD n '0'

/-- Two lowercase digits for each byte. -/
def hexEncode (bytes : Bytes) : Str :=
  bytes.flatMap fun b : UInt8 =>
    [lowerHexDigit (b >>> 4).toNat, lowerHexDigit (b &&& 0x0f).toNat]

theorem forall_mem_hexEncode {P : Char → Prop}
    (hdigit : ∀ n < 16, P (lowerHexDigit n)) (bytes : Bytes) :
    ∀ c ∈ hexEncode bytes, P c := by
  intro c hc
  obtain ⟨b, -, hc⟩ := List.mem_flatMap.mp hc
  obtain ⟨hhigh, hlow, -⟩ := Lib.nibbles b
  rw [List.mem_pair] at hc
  rcases hc with rfl | rfl
  · exact hdigit _ hhigh
  · exact hdigit _ hlow

def algorithm : Str := "AWS4-HMAC-SHA256"

def requestTerminator : Str := "aws4_request"

/-- The key of a day, a region and a service. -/
def deriveSigningKey (crypto : Crypto) (secretAccessKey : Bytes)
    (date region service : Str) : Bytes :=
  let dateKey :=
    crypto.hmac (Lib.utf8 "AWS4".toList ++ secretAccessKey) (Lib.utf8 date)
  let regionKey := crypto.hmac dateKey (Lib.utf8 region)
  let serviceKey := crypto.hmac regionKey (Lib.utf8 service)
  crypto.hmac serviceKey (Lib.utf8 requestTerminator)

def credentialScope (date : Str) (scope : SigningScope) : Str :=
  date ++ '/' ::
    (scope.region ++ '/' :: (scope.service ++ '/' :: requestTerminator))

def payloadSha256Hex (crypto : Crypto) (payload : Bytes) : Str :=
  hexEncode (crypto.sha.digest payload)

/-- The signature of a canonical request. -/
def calculateSignature (crypto : Crypto) (credentials : SigningCredentials)
    (scope : SigningScope)
    (date amzDate credentialScope canonicalRequest : Str) : Str :=
  let requestHash := payloadSha256Hex crypto (Lib.utf8 canonicalRequest)
  let stringToSign :=
    algorithm ++
      '\n' :: (amzDate ++ '\n' :: (credentialScope ++ '\n' :: requestHash))
  let key :=
    deriveSigningKey crypto credentials.secretAccessKey date scope.region
      scope.service
  hexEncode (crypto.hmac key (Lib.utf8 stringToSign))

/-- A number padded with zeros to a width. -/
def padded (width n : Nat) : Str := (decimal n).leftpad width '0'

def formatYear (year : Int) : Str :=
  if year < 0 then '-' :: padded 4 year.natAbs else padded 4 year.natAbs

/-- `x-amz-date` and the date alone. -/
def formatTimestamp (timestamp : DateTime) : Str × Str :=
  let date :=
    formatYear timestamp.year ++ padded 2 timestamp.month ++
      padded 2 timestamp.day
  (date ++
    'T' :: (padded 2 timestamp.hour ++ padded 2 timestamp.minute ++
      padded 2 timestamp.second ++
    ['Z']), date)

/-- The headers that are signed: those of the request, the date and the
token. -/
def signedHeaderList (credentials : SigningCredentials) (headers : List Header)
    (amzDate : Str) :
    List Header :=
  headers ++ ⟨"x-amz-date", amzDate⟩ ::
    (credentials.sessionToken.map fun token =>
      (⟨"x-amz-security-token", token⟩ : Header)).toList

/-- The canonical request a signature is calculated over. -/
def canonicalRequest (credentials : SigningCredentials)
    (request : HeaderSigningRequest) (amzDate : Str) :
    Except SigningError (CanonicalHeaders × Str) := do
  let headers ← canonicalHeaders
    (signedHeaderList credentials request.headers amzDate)
  let text ← buildCanonicalRequest request.method request.uriPath request.query
    headers
    request.payloadHash
  return (headers, text)

def authorizationHeader
    (accessKeyId credentialScope signedHeaders signature : Str) : Str :=
  algorithm ++ " Credential=".toList ++ accessKeyId ++
    '/' :: (credentialScope ++
    ", SignedHeaders=".toList ++ signedHeaders ++ ", Signature=".toList ++
      signature)

/-- `sign_headers`: the headers that a signed request carries. -/
def signHeaders (crypto : Crypto) (credentials : SigningCredentials)
    (scope : SigningScope) (request : HeaderSigningRequest)
    (timestamp : DateTime) :
    Except SigningError HeaderSigningOutput := do
  validateCommon credentials scope request.method
  validatePayloadHash request.payloadHash
  rejectReservedHeaders request.headers
  let (amzDate, date) := formatTimestamp timestamp
  let (headers, text) ← canonicalRequest credentials request amzDate
  let credentialScope := credentialScope date scope
  let signature :=
    calculateSignature crypto credentials scope date amzDate credentialScope
      text
  return {
    authorization :=
      authorizationHeader credentials.accessKeyId credentialScope headers.signed
        signature
    amzDate := amzDate
    securityToken := credentials.sessionToken }

/-! ## What the canonical request determines -/

section Injective

/-- The canonical header map: lowercase names, each with its normalised values
joined. -/
def headerMap (headers : List Header) :
    Except SigningError (List (Str × Str)) :=
  (orderHeaders headers []).map joinValues

/-- The inputs of a canonical request. -/
structure SigningInput where
  credentials : SigningCredentials
  scope : SigningScope
  request : HeaderSigningRequest

/-- The input passes every check, its headers are canonicalised to `headers`,
and its canonical request is `text`. -/
structure Signable (i : SigningInput) (headers : CanonicalHeaders)
    (text : Str) : Prop where
  common : validateCommon i.credentials i.scope i.request.method = .ok ()
  payload : validatePayloadHash i.request.payloadHash = .ok ()
  canonical : canonicalHeaders i.request.headers = .ok headers
  text : buildCanonicalRequest i.request.method i.request.uriPath
    i.request.query headers
    i.request.payloadHash = .ok text

variable {i j : SigningInput} {headers headers' : CanonicalHeaders} {text : Str}

theorem Signable.method_clean (h : Signable i headers text) :
    '\n' ∉ i.request.method := fun hmem =>
  Bool.false_ne_true ((validateCommon_ok h.common).2.2.2 _ hmem)

theorem Signable.fields (h : Signable i headers text) :
    ∃ uri ordered, canonicalUriFromEncoded i.request.uriPath = .ok uri ∧
    '\n' ∉ uri ∧
      orderHeaders i.request.headers [] = .ok ordered ∧ ordered ≠ [] ∧
      (∀ entry ∈ ordered, CleanEntry entry) ∧ headers = renderHeaders ordered ∧
      text = i.request.method ++
        '\n' :: (uri ++ '\n' :: (canonicalQuery i.request.query ++ '\n' ::
        (headers.canonical ++
          '\n' :: (headers.signed ++ '\n' :: i.request.payloadHash)))) := by
  obtain ⟨ordered, hordered, hne, hclean, hrender⟩ :=
    canonicalHeaders_ok h.canonical
  have htext := h.text
  unfold buildCanonicalRequest at htext
  cases huri : canonicalUriFromEncoded i.request.uriPath with
  | error e => simp [huri, Except.map] at htext
  | ok uri =>
      simp only [huri, Except.map, Except.ok.injEq] at htext
      refine ⟨uri, ordered, rfl, fun hmem => ?_, hordered, hne, hclean, hrender,
        htext.symm⟩
      exact Bool.false_ne_true ((canonicalUriFromEncoded_spec huri).1 _ hmem)

theorem signed_clean {ordered : List (Str × List Str)}
    (h : ∀ entry ∈ ordered, CleanEntry entry) :
    '\n' ∉ (renderHeaders ordered).signed := by
  intro hmem
  rcases Lib.mem_intercalate hmem with hmem | ⟨name, hname, hmem⟩
  · cases hmem
  · obtain ⟨entry, hentry, rfl⟩ := List.mem_map.mp hname
    exact Bool.false_ne_true ((h entry hentry).2.1 _ hmem)

theorem lines_clean {ordered : List (Str × List Str)}
    (h : ∀ entry ∈ ordered, CleanEntry entry) :
    ∀ line ∈ (joinValues ordered).map headerLine, line ≠ [] ∧ '\n' ∉ line := by
  intro line hline
  obtain ⟨pair, hpair, rfl⟩ := List.mem_map.mp hline
  obtain ⟨entry, hentry, rfl⟩ := List.mem_map.mp hpair
  exact headerLine_clean (h entry hentry)

theorem joinValues_names {ordered : List (Str × List Str)}
    (h : ∀ entry ∈ ordered, CleanEntry entry) :
    ∀ pair ∈ joinValues ordered, ':' ∉ pair.1 := by
  intro pair hpair hmem
  obtain ⟨entry, hentry, rfl⟩ := List.mem_map.mp hpair
  exact Bool.false_ne_true ((h entry hentry).2.1 _ hmem)

/-- **Equal canonical requests come from equal requests**, up to normalisation:
the same method, the same path octets (a path without a leading slash counts as
one with it), the same parameters in some order, the same header map, the same
signed names and the same payload hash. -/
theorem canonicalRequest_determines (hi : Signable i headers text)
    (hj : Signable j headers' text) :
    i.request.method = j.request.method ∧
    Lib.percentDecode (rooted i.request.uriPath) =
      Lib.percentDecode (rooted j.request.uriPath) ∧
    i.request.query.Perm j.request.query ∧
    headerMap i.request.headers = headerMap j.request.headers ∧
    headers.signed = headers'.signed ∧
    i.request.payloadHash = j.request.payloadHash := by
  obtain ⟨uri, ordered, huri, hnl, hordered, hne, hclean, rfl, htext⟩ :=
    hi.fields
  obtain ⟨uri', ordered', huri', hnl', hordered', hne', hclean', rfl, htext'⟩ :=
    hj.fields
  rw [htext] at htext'
  obtain ⟨hmethod, hfrom⟩ :=
    Lib.append_cons_inj hi.method_clean hj.method_clean htext'
  obtain ⟨rfl, hfromQuery⟩ := Lib.append_cons_inj hnl hnl' hfrom
  have hqueryClean : ∀ query, '\n' ∉ canonicalQuery query := fun query =>
    not_mem_canonicalQuery (by decide) (by decide) (by decide)
  obtain ⟨hquery, hfromHeaders⟩ :=
    Lib.append_cons_inj (hqueryClean _) (hqueryClean _) hfromQuery
  -- the header lines end at the empty line, whatever their number
  obtain ⟨hlines, hfromSigned⟩ :=
    Lib.block_inj (lines_clean hclean) (lines_clean hclean') hfromHeaders
  obtain ⟨hsigned, hpayload⟩ :=
    Lib.append_cons_inj (signed_clean hclean) (signed_clean hclean') hfromSigned
  refine ⟨hmethod, ?_, canonicalQuery_inj hquery, ?_, hsigned, hpayload⟩
  · rw [← (canonicalUriFromEncoded_spec huri).2,
      ← (canonicalUriFromEncoded_spec huri').2]
  · rw [headerMap, headerMap, hordered, hordered']
    refine congrArg Except.ok ?_
    exact Lib.map_inj_of_forall
      (p := fun pair : Str × Str => ':' ∉ pair.1) headerLine_inj
      (joinValues_names hclean) (joinValues_names hclean') hlines

/-- A request that differs from others in its path and its query only. -/
def sampleInput (path : Str) (query : List QueryParam) : SigningInput where
  credentials := ⟨"AKID", Lib.utf8 "secret".toList, none⟩
  scope := ⟨"us-east-1", "s3"⟩
  request := ⟨"GET", path, query, [⟨"Host", "example"⟩], unsignedPayload⟩

def paramA : QueryParam := ⟨"a", "1"⟩

def paramB : QueryParam := ⟨"b", "&="⟩

/-- Two spellings of one request, with the parameters in the other order. -/
theorem canonicalRequest_determines_spellings :
    ∃ headers text,
      Signable (sampleInput "/k%2f" [paramA, paramB]) headers text ∧
      Signable (sampleInput "/k%2F" [paramB, paramA]) headers text ∧
      [paramA, paramB].Perm [paramB, paramA] := by
  have hi : Signable (sampleInput "/k%2f" [paramA, paramB])
      ⟨"host:example\n", "host"⟩
          "GET\n/k%2F\na=1&b=%26%3D\nhost:example\n\nhost\nUNSIGNED-PAYLOAD".toList :=
    ⟨by decide, by decide, by decide, by decide +kernel⟩
  have hj : Signable (sampleInput "/k%2F" [paramB, paramA])
      ⟨"host:example\n", "host"⟩
          "GET\n/k%2F\na=1&b=%26%3D\nhost:example\n\nhost\nUNSIGNED-PAYLOAD".toList :=
    ⟨by decide, by decide, by decide, by decide +kernel⟩
  exact ⟨_, _, hi, hj, (canonicalRequest_determines hi hj).2.2.1⟩

/-- A path without a leading slash is signed as the path with it, so the
canonical request does not tell the two apart. -/
theorem canonicalRequest_adds_slash :
    ∃ headers text, Signable (sampleInput "k" []) headers text ∧
      Signable (sampleInput "/k" []) headers text ∧
      Lib.percentDecode "k".toList ≠ Lib.percentDecode "/k".toList :=
  ⟨⟨"host:example\n", "host"⟩,
    "GET\n/k\n\nhost:example\n\nhost\nUNSIGNED-PAYLOAD".toList,
    ⟨by decide, by decide, by decide, by decide +kernel⟩,
    ⟨by decide, by decide, by decide, by decide +kernel⟩, by decide⟩

end Injective

end S3Wire
