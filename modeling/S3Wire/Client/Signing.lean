/-
# `S3Wire.Client.Signing` — a signed HTTP request

`src/client/request/signing.rs`, with the credentials of
`src/credentials/mod.rs`.

The headers of the caller get the host, the payload hash and the length; these
are signed; the signature, its date and the session token are added.
`signedHeaders_eq` is the one lemma about all this: it names the map that was
signed and the three insertions that follow.  The body comes last, so that a
one-shot body is taken only for a request that is signed already.

What the world answers to one call (`SigningEnv`) is what the credential
provider returns, two readings of the wall clock and what opening a snapshot
gives.  An `http::Request` is built from a method and a URI that are one
already, so building it does not fail.
-/
import S3Wire.Client.Headers
import S3Wire.Endpoint
import S3Wire.Lib.Fallible
import S3Wire.Signing.Request
import S3Wire.Stream.Upload

namespace S3Wire

/-! ## Credentials -/

/-- Times are in nanoseconds since the epoch. -/
structure Credentials where
  accessKeyId : Str
  secretAccessKey : Str
  sessionToken : Option Str
  expiresAt : Option Int
  accessKeyId_nonempty : accessKeyId ≠ []
  secretAccessKey_nonempty : secretAccessKey ≠ []
  sessionToken_nonempty : sessionToken ≠ some []

namespace Credentials

/-- Credentials that were checked, with the time at which they end. -/
def withExpiration (accessKeyId secretAccessKey : Str)
    (sessionToken : Option Str) (expiresAt : Option Int) :
    Except S3Error Credentials :=
  if hkey : accessKeyId = [] then
    .error (S3Error.configuration
      "credential access key identifier must not be empty")
  else if hsecret : secretAccessKey = [] then
    .error (S3Error.configuration
      "credential secret access key must not be empty")
  else if htoken : sessionToken = some [] then
    .error (S3Error.configuration
      "credential session token must not be empty when present")
  else .ok ⟨accessKeyId, secretAccessKey, sessionToken, expiresAt, hkey,
    hsecret, htoken⟩

/-- The credentials are over at this time. -/
def expiresBy (credentials : Credentials) (time : Int) : Bool :=
  credentials.expiresAt.any fun expiration => expiration ≤ time

/-- What the signature uses of them. -/
def signing (credentials : Credentials) : SigningCredentials :=
  ⟨credentials.accessKeyId, Lib.utf8 credentials.secretAccessKey,
    credentials.sessionToken⟩

end Credentials

/-! ## Header names and values the client writes -/

/-- `HeaderName::from_static`: the text is a name. -/
def HeaderName.fromStatic (s : Str)
    (h : s ≠ [] ∧ s.all isHeaderNameChar = true) : HeaderName :=
  ⟨s, h.1, h.2⟩

namespace HeaderName

def host : HeaderName := fromStatic "host" (by decide)

def contentLength : HeaderName := fromStatic "content-length" (by decide)

def authorization : HeaderName := fromStatic "authorization" (by decide)

def amzContentSha256 : HeaderName :=
  fromStatic "x-amz-content-sha256" (by decide)

def amzDate : HeaderName := fromStatic "x-amz-date" (by decide)

def amzSecurityToken : HeaderName :=
  fromStatic "x-amz-security-token" (by decide)

end HeaderName

theorem decimal_valid (n : Nat) :
    (Lib.utf8 (decimal n)).all isHeaderValueByte = true := by
  have hdigit : ∀ c ∈ decimal n, c.toNat ≤ 127 ∧
      isHeaderValueByte (UInt8.ofNat c.toNat) = true := by
    intro c hc
    have h := isDigit_decimal hc
    have hascii : c.toNat ≤ 127 :=
      ascii_of_isAlphanum (by simp [Char.isAlphanum, h])
    exact ⟨hascii, Lib.forall_ascii
      (P := fun c => c.isDigit = true →
        isHeaderValueByte (UInt8.ofNat c.toNat) = true)
      (by decide +kernel) hascii h⟩
  rw [utf8_ascii fun c hc => (hdigit c hc).1, List.all_eq_true]
  intro b hb
  obtain ⟨c, hc, rfl⟩ := List.mem_map.mp hb
  exact (hdigit c hc).2

/-- `HeaderValue::from(u64)`. -/
def HeaderValue.ofNat (n : Nat) : HeaderValue :=
  ⟨Lib.utf8 (decimal n), decimal_valid n⟩

/-! ## Signed requests -/

/-- What an attempt signs. -/
structure SignedRequestInput where
  method : Str
  target : EndpointUrl
  query : List QueryParam
  headers : HeaderMap
  body : Option PreparedBody
  payloadHash : Str
  signingRegion : Str

/-- What the world answers while one request is signed. -/
structure SigningEnv where
  /-- What the credential provider returns. -/
  credentials : Except S3Error Credentials
  /-- The clock when the expiry is checked. -/
  now : Int
  /-- The clock when the request is signed. -/
  timestamp : DateTime
  /-- What opening the snapshot of the body gives. -/
  opened : Option (List StreamEvent)

/-- An `http::Request`; the URI is the text it was parsed from. -/
structure HttpRequest where
  method : Str
  uri : Str
  headers : HeaderMap
  body : TransportBody

/-- A generated header: its value, or an error with this message. -/
def headerValue (value : Str) (message : String) : Except S3Error HeaderValue :=
  match HeaderValue.fromStr value with
  | some value => .ok value
  | none => .error (S3Error.configuration message)

/-- The headers that are there before the request is signed. -/
def unsignedHeaders (input : SignedRequestInput) : Except S3Error HeaderMap :=
  do
  let host ← headerValue input.target.authority
    "endpoint authority is not a valid header"
  let payload ← headerValue input.payloadHash
    "payload digest is not a valid header"
  let headers :=
    (input.headers.insert .host host).insert .amzContentSha256 payload
  match input.body with
  | some body => return headers.insert .contentLength (.ofNat body.length)
  | none => return headers

/-- The header list given to the signature, in the order of the map. -/
def ownedHeaders (headers : HeaderMap) : Except S3Error (List Header) :=
  headers.iter.mapM fun entry =>
    match entry.2.toStr with
    | some value => .ok ⟨entry.1.text, value⟩
    | none =>
        .error (S3Error.configuration
          "a signed header contains non-ASCII bytes")

/-- What is signed of an input, with its headers as they go out. -/
def SignedRequestInput.signingRequest (input : SignedRequestInput)
    (headers : List Header) :
    HeaderSigningRequest :=
  ⟨input.method, pathOf input.target.pathAndQuery, input.query, headers,
    input.payloadHash⟩

/-- The scope of an input. -/
def SignedRequestInput.scope (input : SignedRequestInput) : SigningScope :=
  ⟨input.signingRegion, "s3"⟩

/-- The headers that follow from the signature. -/
def insertSignature (headers : HeaderMap) (signed : HeaderSigningOutput) :
    Except S3Error HeaderMap := do
  let authorization ← headerValue signed.authorization
    "generated authorization header is invalid"
  let date ← headerValue signed.amzDate "generated signing date is invalid"
  let headers :=
    (headers.insert .authorization authorization).insert .amzDate date
  match signed.securityToken with
  | some token =>
      let token ← headerValue token "generated session token header is invalid"
      return headers.insert .amzSecurityToken token
  | none => return headers

/-- Everything of `signed_request` but the body. -/
def signedHeaders (crypto : Crypto) (env : SigningEnv)
    (input : SignedRequestInput) :
    Except S3Error HeaderMap := do
  let headers ← unsignedHeaders input
  let credentials ← env.credentials
  if credentials.expiresBy env.now then
    .error (S3Error.new .authentication
      "credential provider returned expired credentials" .never)
  else
    let owned ← ownedHeaders headers
    match signHeaders crypto credentials.signing input.scope
        (input.signingRequest owned) env.timestamp with
    | .error _ =>
        .error (S3Error.new .authentication "request signing failed" .never)
    | .ok signed => insertSignature headers signed

/-- `S3Client::signed_request`, with what is left of the body. -/
def signedRequest (crypto : Crypto) (env : SigningEnv)
    (input : SignedRequestInput) :
    Except S3Error HttpRequest × Option PreparedBody :=
  match signedHeaders crypto env input with
  | .error e => (.error e, input.body)
  | .ok headers =>
      match input.body with
      | none =>
          (.ok ⟨input.method, input.target.serialized, headers,
            TransportBody.empty crypto.sha⟩, none)
      | some body =>
          match body.requestBody env.opened with
          | (.error e, body) => (.error e, some body)
          | (.ok transport, body) =>
              (.ok ⟨input.method, input.target.serialized, headers, transport⟩,
                some body)

/-! ## What was signed, and what was added -/

theorem insertEntry_of_not_mem {name : HeaderName} {value : HeaderValue} :
    ∀ {entries : List (HeaderName × List HeaderValue)},
      name ∉ entries.map Prod.fst →
      insertEntry name value entries = entries ++ [(name, [value])]
  | [], _ => rfl
  | (n, values) :: rest, h => by
      simp only [List.map_cons, List.mem_cons, not_or] at h
      rw [insertEntry, if_neg (Ne.symm h.1), insertEntry_of_not_mem h.2]
      rfl

theorem HeaderMap.iter_insert {headers : HeaderMap} {name : HeaderName}
    {value : HeaderValue} (h : name ∉ headers.entries.map Prod.fst) :
    (headers.insert name value).iter = headers.iter ++ [(name, value)] := by
  simp [iter, insert, insertEntry_of_not_mem h]

theorem headerValue_ok {value : Str} {message : String} {v : HeaderValue}
    (h : headerValue value message = .ok v) : v.bytes = Lib.utf8 value := by
  unfold headerValue at h
  split at h
  · next hv =>
      cases h
      exact HeaderValue.fromStr_bytes hv
  · cases h

theorem signHeaders_ok {crypto : Crypto} {credentials : SigningCredentials}
    {scope : SigningScope} {request : HeaderSigningRequest}
    {timestamp : DateTime} {signed : HeaderSigningOutput}
    (h : signHeaders crypto credentials scope request timestamp = .ok signed) :
    ∃ canonical text,
      validateCommon credentials scope request.method = .ok () ∧
      rejectReservedHeaders request.headers = .ok () ∧
      canonicalRequest credentials request (formatTimestamp timestamp).1 =
        .ok (canonical, text) ∧
      signed = ⟨authorizationHeader credentials.accessKeyId
          (credentialScope (formatTimestamp timestamp).2 scope) canonical.signed
          (calculateSignature crypto credentials scope
            (formatTimestamp timestamp).2
            (formatTimestamp timestamp).1
              (credentialScope (formatTimestamp timestamp).2 scope) text),
        (formatTimestamp timestamp).1, credentials.sessionToken⟩ := by
  unfold signHeaders at h
  obtain ⟨⟨⟩, hcommon, h⟩ := Lib.bind_ok h
  obtain ⟨_, _, h⟩ := Lib.bind_ok h
  obtain ⟨⟨⟩, hreserved, h⟩ := Lib.bind_ok h
  obtain ⟨⟨canonical, text⟩, hcanonical, h⟩ := Lib.bind_ok h
  cases h
  exact ⟨canonical, text, hcommon, hreserved, hcanonical, rfl⟩

theorem signHeaders_of_checks {crypto : Crypto}
    {credentials : SigningCredentials} {scope : SigningScope}
    {request : HeaderSigningRequest} {timestamp : DateTime}
    {canonical : CanonicalHeaders} {text : Str}
    (hcommon : validateCommon credentials scope request.method = .ok ())
    (hpayload : validatePayloadHash request.payloadHash = .ok ())
    (hreserved : rejectReservedHeaders request.headers = .ok ())
    (hcanonical :
    canonicalRequest credentials request (formatTimestamp timestamp).1 =
      .ok (canonical, text)) :
    signHeaders crypto credentials scope request timestamp =
      .ok ⟨authorizationHeader credentials.accessKeyId
          (credentialScope (formatTimestamp timestamp).2 scope) canonical.signed
          (calculateSignature crypto credentials scope
            (formatTimestamp timestamp).2
            (formatTimestamp timestamp).1
              (credentialScope (formatTimestamp timestamp).2 scope) text),
        (formatTimestamp timestamp).1, credentials.sessionToken⟩ := by
  unfold signHeaders
  simp only [hcommon, hpayload, hreserved, hcanonical]
  rfl

theorem canonicalRequest_ok {credentials : SigningCredentials}
    {request : HeaderSigningRequest} {amzDate text : Str}
    {canonical : CanonicalHeaders}
    (h : canonicalRequest credentials request amzDate = .ok (canonical, text)) :
    canonicalHeaders (signedHeaderList credentials request.headers amzDate) =
      .ok canonical ∧
      buildCanonicalRequest request.method request.uriPath request.query
        canonical request.payloadHash =
        .ok text := by
  unfold canonicalRequest at h
  obtain ⟨headers, hheaders, h⟩ := Lib.bind_ok h
  obtain ⟨built, hbuilt, h⟩ := Lib.bind_ok h
  obtain ⟨rfl, rfl⟩ := Prod.mk.inj (Except.ok.inj h)
  exact ⟨hheaders, hbuilt⟩

theorem insertSignature_ok {headers headers' : HeaderMap}
    {signed : HeaderSigningOutput}
    (h : insertSignature headers signed = .ok headers') :
    ∃ authorization date, authorization.bytes = Lib.utf8 signed.authorization ∧
      date.bytes = Lib.utf8 signed.amzDate ∧
      ((signed.securityToken = none ∧
          headers' =
            (headers.insert .authorization authorization).insert .amzDate
              date) ∨
        ∃ token value, signed.securityToken = some token ∧
        value.bytes = Lib.utf8 token ∧
          headers' =
            ((headers.insert .authorization authorization).insert .amzDate
              date).insert
            .amzSecurityToken value) := by
  unfold insertSignature at h
  obtain ⟨authorization, hauthorization, h⟩ := Lib.bind_ok h
  obtain ⟨date, hdate, h⟩ := Lib.bind_ok h
  refine ⟨authorization, date, headerValue_ok hauthorization,
    headerValue_ok hdate, ?_⟩
  simp only at h
  split at h
  · next token htoken =>
      obtain ⟨value, hvalue, h⟩ := Lib.bind_ok h
      cases h
      exact Or.inr ⟨token, value, htoken, headerValue_ok hvalue, rfl⟩
  · next htoken =>
      cases h
      exact Or.inl ⟨htoken, rfl⟩

/-- How a request came to its headers: which map was signed, with which
credentials, and what was added to it. -/
theorem signedHeaders_eq {crypto : Crypto} {env : SigningEnv}
    {input : SignedRequestInput} {headers : HeaderMap}
    (h : signedHeaders crypto env input = .ok headers) :
    ∃ base credentials owned signed, unsignedHeaders input = .ok base ∧
      env.credentials = .ok credentials ∧ ownedHeaders base = .ok owned ∧
      signHeaders crypto credentials.signing input.scope
        (input.signingRequest owned) env.timestamp =
        .ok signed ∧
      insertSignature base signed = .ok headers := by
  unfold signedHeaders at h
  obtain ⟨base, hbase, h⟩ := Lib.bind_ok h
  obtain ⟨credentials, hcredentials, h⟩ := Lib.bind_ok h
  split at h
  · cases h
  · obtain ⟨owned, howned, h⟩ := Lib.bind_ok h
    split at h
    · cases h
    · next signed hsigned =>
        exact ⟨base, credentials, owned, signed, hbase, hcredentials, howned,
          hsigned, h⟩

theorem signedHeaders_of {crypto : Crypto} {env : SigningEnv}
    {input : SignedRequestInput} {base : HeaderMap} {credentials : Credentials}
    {owned : List Header} {signed : HeaderSigningOutput}
    (hbase : unsignedHeaders input = .ok base)
    (hcredentials : env.credentials = .ok credentials)
    (hfresh : credentials.expiresBy env.now = false)
    (howned : ownedHeaders base = .ok owned)
    (hsigned : signHeaders crypto credentials.signing input.scope
      (input.signingRequest owned) env.timestamp =
      .ok signed) :
    signedHeaders crypto env input = insertSignature base signed := by
  unfold signedHeaders
  simp only [hbase, hcredentials, howned, bind, Except.bind, hfresh,
    Bool.false_eq_true, if_false, hsigned]

/-- Signing writes only under the names that are the client's. -/
theorem signedHeaders_getAll {crypto : Crypto} {env : SigningEnv}
    {input : SignedRequestInput} {headers : HeaderMap} {name : Str}
    (hname : name ∉ protectedHeaders)
    (h : signedHeaders crypto env input = .ok headers) :
    headers.getAll name = input.headers.getAll name := by
  have hkeeps : ∀ {own : HeaderName} (m : HeaderMap) (value : HeaderValue),
      own.text ∈ protectedHeaders →
      (m.insert own value).getAll name = m.getAll name := by
    intro own m value hown
    rw [HeaderMap.getAll_insert, if_neg]
    rintro rfl
    exact hname hown
  obtain ⟨base, -, -, signed, hbase, -, -, -, hsignature⟩ := signedHeaders_eq h
  have hunsigned : base.getAll name = input.headers.getAll name := by
    obtain ⟨host, -, hbase⟩ := Lib.bind_ok hbase
    obtain ⟨payload, -, hbase⟩ := Lib.bind_ok hbase
    dsimp only at hbase
    split at hbase
    · cases hbase
      rw [hkeeps _ _ (by decide), hkeeps _ _ (by decide),
        hkeeps _ _ (by decide)]
    · cases hbase
      rw [hkeeps _ _ (by decide), hkeeps _ _ (by decide)]
  obtain ⟨authorization, date, -, -, ⟨-, rfl⟩ | ⟨token, value, -, -, rfl⟩⟩ :=
    insertSignature_ok hsignature
  · rw [hkeeps _ _ (by decide), hkeeps _ _ (by decide), hunsigned]
  · rw [hkeeps _ _ (by decide), hkeeps _ _ (by decide), hkeeps _ _ (by decide),
      hunsigned]

theorem signedRequest_ok {crypto : Crypto} {env : SigningEnv}
    {input : SignedRequestInput} {request : HttpRequest}
    (h : (signedRequest crypto env input).1 = .ok request) :
    signedHeaders crypto env input = .ok request.headers ∧
    request.method = input.method ∧
      request.uri = input.target.serialized := by
  unfold signedRequest at h
  split at h
  · cases h
  · next headers hheaders =>
      split at h
      · cases h
        exact ⟨hheaders, rfl, rfl⟩
      · split at h
        · cases h
        · cases h
          exact ⟨hheaders, rfl, rfl⟩

end S3Wire
