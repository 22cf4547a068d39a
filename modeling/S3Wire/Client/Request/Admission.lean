/-
# `S3Wire.Client.Request.Admission` — a service that verifies admits every request

What the signing of `src/client/request/signing.rs` is for, seen from the other
end.  A service knows the secret that goes with an access key; it takes the
`authorization` header apart, builds the canonical request again from the
request alone and compares signatures (`Verifier`).  Once the body is in it
compares its length and its digest as well.

Between signing and sending, `src/transport/mod.rs` refuses a request without a
permitted scheme and adds a user agent, which no signature covers.  Neither can
make a difference: in every run of `send_signed_inner`, after every retry and in
every region, each request passes the transport and is admitted under the
credentials that the provider gave for that very attempt, with the date at which
it was signed (`SendState.admitted_of_reaches`).  A service that asked for the
operation to be sent to its own region finds its own region in the scope.
-/
import S3Wire.Client.Request.Attempts
import S3Wire.Endpoint.Identity
import S3Wire.Stream.Delivery

namespace S3Wire

/-! ## The transport -/

/-- What `send` itself decides by; the connector behind it is another
library's. -/
structure Transport where
  userAgent : HeaderValue
  allowHttp : Bool

def HeaderName.userAgent : HeaderName := fromStatic "user-agent" (by decide)

namespace Transport

/-- `Transport::new`: the user agent must be a header value. -/
def new (userAgent : Str) (allowHttp : Bool) : Except S3Error Transport :=
  match HeaderValue.fromStr userAgent with
  | some userAgent => .ok ⟨userAgent, allowHttp⟩
  | none =>
      .error (S3Error.configuration
        "user agent is not a valid HTTP header value")

/-- `send` up to the connector: the request that goes out. -/
def outgoing (transport : Transport) (request : HttpRequest) :
    Except S3Error HttpRequest :=
  let scheme := (splitUri request.uri).scheme
  let isHttps := scheme = some "https".toList
  if ¬ isHttps ∧
    (transport.allowHttp = false ∨ scheme ≠ some "http".toList) then
    .error (S3Error.configuration
      "transport refused a request without an explicitly permitted scheme")
  else if request.headers.containsKey "user-agent" then .ok request
  else .ok
    { request with headers :=
      request.headers.insert .userAgent transport.userAgent }

end Transport

/-- The transport of a client, as `S3Client::new` makes it. -/
def S3Client.newTransport (client : S3Client) (userAgent : Str) :
    Except S3Error Transport :=
  Transport.new userAgent (!client.config.endpoint.isHttps)

/-! ## A service that verifies -/

/-- What an `authorization` header says. -/
structure Authorization where
  accessKeyId : Str
  date : Str
  scope : SigningScope
  signedNames : List Str
  signature : Str

/-- The key, the date and the scope of a credential. -/
def readCredential (credential : Str) : Option (Str × Str × SigningScope) :=
  match credential.splitOn '/' with
  | [accessKeyId, date, region, service, terminator] =>
      if terminator = requestTerminator then
        some (accessKeyId, date, ⟨region, service⟩) else none
  | _ => none

/-- The parts of an `authorization` header. -/
def readAuthorization (text : Str) : Option Authorization :=
  match text.splitOn ',' with
  | [credential, names, signature] => do
      let credential ← credential.dropPrefix?
        (algorithm ++ " Credential=".toList)
      let (accessKeyId, date, scope) ← readCredential credential
      let names ← names.dropPrefix? " SignedHeaders=".toList
      let signature ← signature.dropPrefix? " Signature=".toList
      return ⟨accessKeyId, date, scope, names.splitOn ';', signature⟩
  | _ => none

/-- The headers that a service wants signed. -/
def mustBeSigned (name : Str) : Bool :=
  name == "host".toList || "x-amz-".toList.isPrefixOf name

/-- A service that checks signatures: the algorithms, and the secrets it
knows. -/
structure Verifier where
  crypto : Crypto
  /-- The secret of an access key, in a session with this token. -/
  secretOf : Str → Option Str → Option Bytes

namespace Verifier

variable (verifier : Verifier) (request : HttpRequest)

/-- The signature that the request ought to have. -/
def signatureFor (authorization : Authorization) : Option Str := do
  let secret ← verifier.secretOf authorization.accessKeyId
    (request.headerText "x-amz-security-token")
  let amzDate ← request.headerText "x-amz-date"
  let text ← recomputed request
  let credentials : SigningCredentials :=
    ⟨authorization.accessKeyId, secret, none⟩
  let scope := credentialScope authorization.date authorization.scope
  return calculateSignature verifier.crypto credentials authorization.scope
    authorization.date amzDate scope text

/-- Whose request it is, when it is signed as it must be. -/
def verifies : Option Authorization := do
  let authorization ← (← request.headerText "authorization") |>
    readAuthorization
  let amzDate ← request.headerText "x-amz-date"
  let covered := request.headers.iter.all fun entry =>
    !mustBeSigned entry.1.text ||
      authorization.signedNames.contains entry.1.text
  if covered = true ∧ authorization.signedNames.contains "host".toList = true ∧
      Lib.beforeFirst 'T' amzDate = authorization.date ∧
      verifier.signatureFor request authorization =
        some authorization.signature then some authorization
  else none

/-- The body that came with the request is the one that was signed. -/
structure Admits (authorization : Authorization) (body : Bytes) : Prop where
  verified : verifier.verifies request = some authorization
  digest : request.headerText "x-amz-content-sha256" =
    some (payloadSha256Hex verifier.crypto body)
  length : ∀ text, request.headerText "content-length" = some text →
    text = decimal body.length

end Verifier

/-! ## The authorization, taken apart -/

theorem isScopeChar_ne {d : Char} {s : Str} (h : ∀ c ∈ s, isScopeChar c = true)
    (hd : isScopeChar d = false) :
    d ∉ s := by
  intro hmem
  rw [h d hmem] at hd
  cases hd

theorem not_mem_date {c : Char} (timestamp : DateTime)
    (hdigit : c.isDigit = false) (hminus : c ≠ '-') :
    c ∉ (formatTimestamp timestamp).2 := by
  have hpadded : ∀ {width n}, c ∉ padded width n := not_mem_padded hdigit
  simp only [formatTimestamp, formatYear]
  split <;> simp [hpadded, hminus]

theorem beforeFirst_amzDate (timestamp : DateTime) :
    Lib.beforeFirst 'T' (formatTimestamp timestamp).1 =
      (formatTimestamp timestamp).2 :=
  Lib.beforeFirst_append _ (not_mem_date timestamp (by decide) (by decide))

section Read

variable {accessKeyId date signature : Str} {scope : SigningScope}
  {names : List Str}

theorem readCredential_eq (hkey : '/' ∉ accessKeyId) (hdate : '/' ∉ date)
    (hregion : '/' ∉ scope.region) (hservice : '/' ∉ scope.service) :
    readCredential (accessKeyId ++ '/' :: credentialScope date scope) =
      some (accessKeyId, date, scope) := by
  have hfields : accessKeyId ++ '/' :: credentialScope date scope =
      ['/'].intercalate
          [accessKeyId, date, scope.region, scope.service,
              requestTerminator] := by
    simp only [credentialScope, List.intercalate_cons_cons,
      List.intercalate_singleton, List.append_assoc,
      List.cons_append, List.nil_append]
  have hclean :
      ∀ field ∈ [accessKeyId, date, scope.region, scope.service,
        requestTerminator], '/' ∉ field := by
    have hterminator : '/' ∉ requestTerminator := by decide
    intro field hfield
    simp only [List.mem_cons, List.not_mem_nil, or_false] at hfield
    rcases hfield with rfl | rfl | rfl | rfl | rfl
    · exact hkey
    · exact hdate
    · exact hregion
    · exact hservice
    · exact hterminator
  rw [readCredential, hfields, List.splitOn_intercalate '/' hclean (by simp)]
  exact if_pos rfl

theorem readAuthorization_header
    (hkey : ∀ c ∈ accessKeyId, isScopeChar c = true)
    (hdate : ',' ∉ date ∧ '/' ∉ date)
    (hregion : ∀ c ∈ scope.region, isScopeChar c = true)
    (hservice : ∀ c ∈ scope.service, isScopeChar c = true)
    (hsignature : ',' ∉ signature) (hne : names ≠ [])
    (hcomma : ∀ name ∈ names, ',' ∉ name)
    (hsemicolon : ∀ name ∈ names, ';' ∉ name) :
    readAuthorization
      (authorizationHeader accessKeyId (credentialScope date scope)
        ([';'].intercalate names)
      signature) = some ⟨accessKeyId, date, scope, names, signature⟩ := by
  have hscope : ',' ∉ credentialScope date scope := by
    have hrest : ',' ∉ scope.region ∧ ',' ∉ scope.service ∧
        ',' ∉ requestTerminator ∧ ',' ≠ '/' :=
      ⟨isScopeChar_ne hregion (by decide), isScopeChar_ne hservice (by decide),
        by decide, by decide⟩
    simp only [credentialScope, List.mem_append, List.mem_cons, not_or]
    exact ⟨hdate.1, hrest.2.2.2, hrest.1, hrest.2.2.2, hrest.2.1, hrest.2.2.2,
      hrest.2.2.1⟩
  have hfields :
      authorizationHeader accessKeyId (credentialScope date scope)
        ([';'].intercalate names) signature =
      [','].intercalate
        [algorithm ++ " Credential=".toList ++
          (accessKeyId ++ '/' :: credentialScope date scope),
        " SignedHeaders=".toList ++ [';'].intercalate names,
            " Signature=".toList ++ signature] := by
    have hsigned :
      ", SignedHeaders=".toList = ',' :: " SignedHeaders=".toList := by decide
    have hsign : ", Signature=".toList = ',' :: " Signature=".toList := by
      decide
    simp only [authorizationHeader, hsigned, hsign, List.intercalate_cons_cons,
      List.intercalate_singleton,
      List.append_assoc, List.cons_append, List.nil_append]
  have hnames : ',' ∉ [';'].intercalate names := by
    intro hmem
    rcases Lib.mem_intercalate hmem with hmem | ⟨name, hname, hmem⟩
    · cases hmem
    · exact hcomma name hname hmem
  have hclean :
      ∀ field ∈ [algorithm ++ " Credential=".toList ++
          (accessKeyId ++ '/' :: credentialScope date scope),
      " SignedHeaders=".toList ++ [';'].intercalate names,
          " Signature=".toList ++ signature], ',' ∉ field := by
    have hlabels : ',' ∉ algorithm ++ " Credential=".toList ∧
        ',' ∉ " SignedHeaders=".toList ∧
        ',' ∉ " Signature=".toList := by decide
    intro field hfield
    simp only [List.mem_cons, List.not_mem_nil, or_false] at hfield
    rcases hfield with rfl | rfl | rfl
    · have hcredential :
          ',' ∉ accessKeyId ++ '/' :: credentialScope date scope := by
        rw [List.mem_append, List.mem_cons]
        rintro (h | h | h)
        · exact isScopeChar_ne hkey (by decide) h
        · exact absurd h (by decide)
        · exact hscope h
      rw [List.mem_append]
      exact not_or_intro hlabels.1 hcredential
    · rw [List.mem_append]
      exact not_or_intro hlabels.2.1 hnames
    · rw [List.mem_append]
      exact not_or_intro hlabels.2.2 hsignature
  have hcredential :=
    @readCredential_eq accessKeyId date scope
      (isScopeChar_ne hkey (by decide)) hdate.2
    (isScopeChar_ne hregion (by decide)) (isScopeChar_ne hservice (by decide))
  rw [readAuthorization, hfields, List.splitOn_intercalate ',' hclean (by simp)]
  dsimp only
  rw [List.dropPrefix?_append_of_beq _ BEq.rfl,
    List.dropPrefix?_append_of_beq _ BEq.rfl,
    List.dropPrefix?_append_of_beq _ BEq.rfl]
  simp only [Option.bind_eq_bind, Option.bind_some, hcredential,
    List.splitOn_intercalate ';' hsemicolon hne]
  rfl

end Read

/-! ## A header that is added later -/

section Later

variable {request : HttpRequest} {name : HeaderName} {value : HeaderValue}

/-- The request with a header more. -/
def HttpRequest.withHeader (request : HttpRequest) (name : HeaderName)
    (value : HeaderValue) : HttpRequest :=
  { request with headers := request.headers.insert name value }

theorem HttpRequest.headerText_withHeader {other : Str}
    (h : other ≠ name.text) :
    (request.withHeader name value).headerText other =
      request.headerText other := by
  rw [headerText, withHeader, HeaderMap.get_insert, if_neg h]
  rfl

theorem iter_withHeader (hnew : request.headers.containsKey name.text = false) :
    (request.withHeader name value).headers.iter = request.headers.iter ++
      [(name, value)] := by
  refine HeaderMap.iter_insert ?_
  intro hmem
  obtain ⟨other, hother⟩ := HeaderMap.mem_names_iff.mp hmem
  rw [HeaderMap.containsKey_iff.mpr ⟨_, hother, rfl⟩] at hnew
  cases hnew

theorem recomputed_withHeader {authorization : Str} {names : List Str}
    (hnew : request.headers.containsKey name.text = false)
    (hnames : name.text ∉ names)
    (hauthorization : request.headerText "authorization" = some authorization)
    (hsigned : signedHeaderNames authorization = some names)
    (hown : "authorization".toList ≠ name.text)
    (hpayload : "x-amz-content-sha256".toList ≠ name.text) :
    recomputed (request.withHeader name value) = recomputed request := by
  have hheaders : wireHeaders (request.withHeader name value).headers names =
      wireHeaders request.headers names := by
    have hdropped :
        ([(name, value)].filter fun entry => names.contains entry.1.text) =
            [] := by
      rw [List.filter_cons_of_neg]
      · rfl
      · rw [List.contains_iff_mem]
        exact hnames
    rw [wireHeaders, iter_withHeader hnew, List.filter_append, hdropped,
      List.append_nil]
    rfl
  rw [recomputed, recomputed, HttpRequest.headerText_withHeader hown,
    HttpRequest.headerText_withHeader hpayload,
    hauthorization]
  simp only [Option.bind_eq_bind, Option.bind_some, hsigned, hheaders]
  rfl

end Later

/-! ## What is signed is verified -/

section Verified

variable {verifier : Verifier} {request : HttpRequest}
  {authorization : Authorization}

/-- Every header that must be signed is. -/
def Covered (request : HttpRequest) (authorization : Authorization) : Prop :=
  (∀ entry ∈ request.headers.iter, mustBeSigned entry.1.text = true →
      entry.1.text ∈ authorization.signedNames) ∧
    "host".toList ∈ authorization.signedNames

theorem Verifier.verifies_eq_some :
    verifier.verifies request = some authorization ↔
    ∃ text amzDate, request.headerText "authorization" = some text ∧
    readAuthorization text = some authorization ∧
      request.headerText "x-amz-date" = some amzDate ∧
      Lib.beforeFirst 'T' amzDate = authorization.date ∧
      Covered request authorization ∧
      verifier.signatureFor request authorization =
        some authorization.signature := by
  have hcovered : ∀ a : Authorization, ((request.headers.iter.all fun entry =>
      !mustBeSigned entry.1.text || a.signedNames.contains entry.1.text) =
        true ∧
        a.signedNames.contains "host".toList = true) ↔ Covered request a := by
    intro a
    rw [Covered, List.all_eq_true, List.contains_iff_mem]
    refine and_congr_left fun _ => forall₂_congr fun entry _ => ?_
    rw [Bool.or_eq_true, Bool.not_eq_true', List.contains_iff_mem,
      ← Bool.not_eq_true, imp_iff_not_or]
  unfold verifies
  simp only [Option.bind_eq_bind, Option.bind_eq_some_iff]
  constructor
  · rintro ⟨text, htext, a, hread, amzDate, hdate, h⟩
    split at h
    · next hchecks =>
        cases h
        obtain ⟨hall, hhost, hprefix, hsignature⟩ := hchecks
        exact ⟨text, amzDate, htext, hread, hdate, hprefix,
          (hcovered _).mp ⟨hall, hhost⟩, hsignature⟩
    · cases h
  · rintro ⟨text, amzDate, htext, hread, hdate, hprefix, hcover, hsignature⟩
    obtain ⟨hall, hhost⟩ := (hcovered _).mpr hcover
    exact ⟨text, htext, authorization, hread, amzDate, hdate,
      if_pos ⟨hall, hhost, hprefix, hsignature⟩⟩

/-- The names that an authorization covers are headers of the request. -/
def NamesOwn (request : HttpRequest) : Prop :=
  ∀ text, request.headerText "authorization" = some text →
    ∃ names, signedHeaderNames text = some names ∧
      ∀ name ∈ names, request.headers.containsKey name = true

theorem Verifier.verifies_outgoing {transport : Transport} {out : HttpRequest}
    (hout : transport.outgoing request = .ok out) (hown : NamesOwn request)
    (h : verifier.verifies request = some authorization) :
    verifier.verifies out = some authorization := by
  rw [Transport.outgoing] at hout
  split at hout
  · cases hout
  split at hout
  · cases hout
    exact h
  next hnew =>
  cases hout
  obtain ⟨text, amzDate, htext, hread, hdate, hprefix, ⟨hcovered, hhost⟩,
    hsignature⟩ := verifies_eq_some.mp h
  obtain ⟨names, hnames, hin⟩ := hown text htext
  have hnew : request.headers.containsKey HeaderName.userAgent.text = false :=
    Bool.eq_false_iff.mpr hnew
  have hnot : HeaderName.userAgent.text ∉ names := by
    intro hmem
    rw [hin _ hmem] at hnew
    cases hnew
  have hother : ∀ {other : Str}, other ≠ HeaderName.userAgent.text →
      (request.withHeader .userAgent transport.userAgent).headerText other =
          request.headerText other :=
    HttpRequest.headerText_withHeader
  refine verifies_eq_some.mpr
    ⟨text, amzDate, (hother (by decide)).trans htext, hread,
    (hother (by decide)).trans hdate, hprefix, ⟨?_, hhost⟩, ?_⟩
  · intro entry hentry hmust
    have hiter := @iter_withHeader request .userAgent transport.userAgent hnew
    rw [HttpRequest.withHeader] at hiter
    rw [hiter, List.mem_append, List.mem_singleton] at hentry
    rcases hentry with hentry | rfl
    · exact hcovered entry hentry hmust
    · cases hmust
  · rw [← hsignature, signatureFor, signatureFor]
    have htoken := @hother "x-amz-security-token" (by decide)
    have hamzDate := @hother "x-amz-date" (by decide)
    have htextual :=
      @recomputed_withHeader request .userAgent transport.userAgent text names
        hnew hnot htext hnames
      (by decide) (by decide)
    rw [HttpRequest.withHeader] at htoken hamzDate htextual
    rw [htoken, hamzDate, htextual]

theorem HeaderMap.getAll_of_absent {headers : HeaderMap} {name : Str}
    (h : headers.containsKey name = false) :
    headers.getAll name = [] := by
  have hfind : headers.entries.find? (fun e => e.1.text == name) = none := by
    rw [List.find?_eq_none]
    exact List.any_eq_false.mp h
  rw [getAll, hfind]
  rfl

theorem HeaderMap.get_of_not_mem {headers : HeaderMap} {name : HeaderName}
    (h : name ∉ headers.entries.map Prod.fst) :
    headers.get name.text = none := by
  rw [get, getAll_of_absent]
  · rfl
  · refine List.any_eq_false.mpr ?_
    intro e he heq
    exact h (HeaderName.ext_text (beq_iff_eq.mp heq) ▸ List.mem_map_of_mem he)

theorem HeaderMap.exists_get {headers : HeaderMap} {name : Str}
    (h : headers.containsKey name = true) :
    ∃ value, headers.get name = some value := by
  rw [containsKey, List.any_eq_true, ← List.find?_isSome,
    Option.isSome_iff_exists] at h
  obtain ⟨entry, hentry⟩ := h
  have hfilled := headers.filled entry (List.mem_of_find?_eq_some hentry)
  rw [get, getAll, hentry]
  exact ⟨_, List.head?_eq_some_head hfilled⟩

theorem signedHeaders_fresh {crypto : Crypto} {env : SigningEnv}
    {input : SignedRequestInput} {headers : HeaderMap}
    {credentials : Credentials}
    (h : signedHeaders crypto env input = .ok headers)
    (hcredentials : env.credentials = .ok credentials) :
    credentials.expiresBy env.now = false := by
  obtain ⟨base, -, h⟩ := Lib.bind_ok h
  obtain ⟨given, hgiven, h⟩ := Lib.bind_ok h
  obtain rfl := Except.ok.inj (hgiven.symm.trans hcredentials)
  split at h
  · cases h
  · next hfresh => exact Bool.eq_false_iff.mpr hfresh

theorem getAll_insertSignature {base headers : HeaderMap}
    {signed : HeaderSigningOutput} {name : Str}
    (h : insertSignature base signed = .ok headers)
    (hname : name ∉ reservedHeaders) :
    headers.getAll name = base.getAll name := by
  have hauthorization : name ≠ HeaderName.authorization.text :=
    fun heq => hname (heq ▸ List.mem_cons_self ..)
  have hdate : name ≠ HeaderName.amzDate.text :=
    fun heq => hname (heq ▸ by decide)
  have htoken : name ≠ HeaderName.amzSecurityToken.text :=
    fun heq => hname (heq ▸ by decide)
  obtain ⟨authorization, date, -, -, ⟨-, rfl⟩ | ⟨token, value, -, -, rfl⟩⟩ :=
    insertSignature_ok h
  · rw [HeaderMap.getAll_insert, if_neg hdate, HeaderMap.getAll_insert,
      if_neg hauthorization]
  · rw [HeaderMap.getAll_insert, if_neg htoken, HeaderMap.getAll_insert,
      if_neg hdate, HeaderMap.getAll_insert,
      if_neg hauthorization]

theorem headerText_insertSignature {base headers : HeaderMap}
    {signed : HeaderSigningOutput}
    (h : insertSignature base signed = .ok headers)
    (htoken : HeaderName.amzSecurityToken ∉ base.entries.map Prod.fst)
    (method uri : Str) (body : TransportBody) :
    (HttpRequest.mk method uri headers body).headerText "x-amz-date" =
      some signed.amzDate ∧
      (HttpRequest.mk method uri headers body).headerText
        "x-amz-security-token" = signed.securityToken := by
  obtain ⟨authorization, date, -, hdate,
    ⟨hnone, rfl⟩ | ⟨token, value, hsome, hvalue, rfl⟩⟩ := insertSignature_ok h
  · constructor
    · rw [HttpRequest.headerText, HeaderMap.get_insert, if_pos (by decide),
        Option.bind_some, hdate,
        Lib.utf8Decode_utf8]
    · have hbase : base.get "x-amz-security-token" = none :=
        HeaderMap.get_of_not_mem htoken
      rw [HttpRequest.headerText, HeaderMap.get_insert, if_neg (by decide),
        HeaderMap.get_insert,
        if_neg (by decide), hbase, hnone]
      rfl
  · constructor
    · rw [HttpRequest.headerText, HeaderMap.get_insert, if_neg (by decide),
        HeaderMap.get_insert,
        if_pos (by decide), Option.bind_some, hdate, Lib.utf8Decode_utf8]
    · rw [HttpRequest.headerText, HeaderMap.get_insert, if_pos (by decide),
        Option.bind_some, hvalue,
        Lib.utf8Decode_utf8, hsome]

/-- The service that knows the secret of these credentials. -/
structure Verifier.Knows (verifier : Verifier) (crypto : Crypto)
    (credentials : Credentials) : Prop where
  crypto : verifier.crypto = crypto
  secret : verifier.secretOf credentials.accessKeyId credentials.sessionToken =
    some (Lib.utf8 credentials.secretAccessKey)

/-- A request that such a service takes for one of these credentials, at this
time and in this scope. -/
structure SignedBy (crypto : Crypto) (credentials : Credentials)
    (timestamp : DateTime) (scope : SigningScope) (request : HttpRequest) :
    Prop where
  own : NamesOwn request
  dated : request.headerText "x-amz-date" = some (formatTimestamp timestamp).1
  verified : ∀ verifier : Verifier, verifier.Knows crypto credentials →
    ∃ names signature,
    verifier.verifies request =
      some ⟨credentials.accessKeyId, (formatTimestamp timestamp).2, scope,
        names, signature⟩

theorem unsignedHeaders_host {input : SignedRequestInput} {headers : HeaderMap}
    (h : unsignedHeaders input = .ok headers) :
    ∃ value, headers.get "host" = some value ∧
    value.bytes = Lib.utf8 input.target.authority := by
  obtain ⟨host, hhost, h⟩ := Lib.bind_ok h
  obtain ⟨payload, -, h⟩ := Lib.bind_ok h
  refine ⟨host, ?_, headerValue_ok hhost⟩
  dsimp only at h
  split at h
  · cases h
    rw [HeaderMap.get_insert, if_neg (by decide), HeaderMap.get_insert,
      if_neg (by decide), HeaderMap.get_insert,
      if_pos (by decide)]
  · cases h
    rw [HeaderMap.get_insert, if_neg (by decide), HeaderMap.get_insert,
      if_pos (by decide)]

theorem HeaderMap.mem_iter_of_get {headers : HeaderMap} {name : Str}
    {value : HeaderValue} (h : headers.get name = some value) :
    ∃ n, n.text = name ∧ (n, value) ∈ headers.iter := by
  rw [get, getAll] at h
  cases hfind : headers.entries.find? fun e => e.1.text == name with
  | none =>
      rw [hfind] at h
      cases h
  | some entry =>
      have hname :=
        List.find?_some
          (p := fun e : HeaderName × List HeaderValue => e.1.text == name) hfind
      rw [hfind] at h
      refine ⟨entry.1, beq_iff_eq.mp hname,
        List.mem_flatMap.mpr ⟨entry, List.mem_of_find?_eq_some hfind, ?_⟩⟩
      exact List.mem_map_of_mem (List.mem_of_head? h)

/-- The authorization of a signed request is read as what it was made of. -/
theorem readAuthorization_authorizationOf {crypto : Crypto}
    {credentials : SigningCredentials} {scope : SigningScope}
    {timestamp : DateTime} {method text : Str} {ordered : List (Str × List Str)}
    (hcommon : validateCommon credentials scope method = .ok ())
    (hne : ordered ≠ []) (hclean : ∀ entry ∈ ordered, CleanEntry entry) :
    readAuthorization
      (authorizationOf crypto credentials scope timestamp
        (renderHeaders ordered).signed text) =
      some ⟨credentials.accessKeyId, (formatTimestamp timestamp).2, scope,
        ordered.map Prod.fst,
        calculateSignature crypto credentials scope
          (formatTimestamp timestamp).2 (formatTimestamp timestamp).1
          (credentialScope (formatTimestamp timestamp).2 scope) text⟩ := by
  obtain ⟨hkey, hregion, hservice, -⟩ := validateCommon_ok hcommon
  have hname : ∀ {c : Char}, isHeaderTokenChar c = false →
      ∀ name ∈ ordered.map Prod.fst, c ∉ name := by
    intro c hc name hname hmem
    obtain ⟨entry, hentry, rfl⟩ := List.mem_map.mp hname
    rw [(hclean entry hentry).2.1 c hmem] at hc
    cases hc
  exact readAuthorization_header hkey
    ⟨not_mem_date timestamp (by decide) (by decide),
      not_mem_date timestamp (by decide) (by decide)⟩ hregion hservice
    (comma_not_mem_hexEncode _) (by simpa using hne) (hname (by decide))
      (hname (by decide))

section Signed

variable {crypto : Crypto} {env : SigningEnv} {input : SignedRequestInput}
  {wire : HttpRequest}

/-- **What is signed is verified**, when the path and the query of the target
are read from its URI. -/
theorem signedBy_of_signed
    (hwire : (signedRequest crypto env input).1 = .ok wire)
    (hpath : (splitUri input.target.serialized).path =
      pathOf input.target.pathAndQuery)
    (hquery : (queryOf (splitUri input.target.serialized).pathAndQuery).getD
      [] = canonicalQuery input.query) :
    ∃ credentials, env.credentials = .ok credentials ∧
    credentials.expiresBy env.now = false ∧
      SignedBy crypto credentials env.timestamp input.scope wire := by
  obtain ⟨hheaders, hmethod, huri⟩ := signedRequest_ok hwire
  obtain ⟨base, credentials, owned, signed, hbase, hcredentials, howned,
      hsigned, hinsert⟩ :=
    signedHeaders_eq hheaders
  obtain ⟨canonical, text, hcommon, hreserved, hcanonical, hsigned_eq⟩ :=
    signHeaders_ok hsigned
  have hnotMem : ∀ name : HeaderName, name.text ∈ reservedHeaders →
      name ∉ base.entries.map Prod.fst :=
    fun name hname => not_mem_of_rejectReserved howned hreserved hname
  obtain ⟨authorization, added, hauthorization, hiter, hget, hpayload,
      hadded⟩ :=
    insertSignature_iter hinsert hnotMem
  have hcanonicalHeaders :
      canonicalHeaders (signedHeaderList credentials.signing owned
      (formatTimestamp env.timestamp).1) = .ok canonical :=
        (canonicalRequest_ok hcanonical).1
  obtain ⟨ordered, hordered, hne, hclean, hrender⟩ :=
    canonicalHeaders_ok hcanonicalHeaders
  have hread : ReadAs (base.iter ++ added)
      (signedHeaderList credentials.signing owned
          (formatTimestamp env.timestamp).1) := by
    rw [hsigned_eq] at hadded
    exact (ownedHeaders_ok howned).append hadded
  have hnot :
      ∀ entry ∈ base.iter ++ added, entry.1.text ≠ "authorization".toList :=
    fun entry hentry => not_authorization hnotMem hadded hentry
  have hnames := mem_signed_iff_containsKey hiter hread hordered hnot
  have htext :
      wire.headerText "authorization" =
        some (authorizationOf crypto credentials.signing input.scope
      env.timestamp canonical.signed text) := by
    rw [HttpRequest.headerText, hget, Option.bind_some, hauthorization,
      Lib.utf8Decode_utf8, hsigned_eq]
    rfl
  have hsignedNames :
      signedHeaderNames
        (authorizationOf crypto credentials.signing input.scope env.timestamp
      canonical.signed text) = some (ordered.map Prod.fst) := by
    rw [hrender]
    exact signedHeaderNames_authorizationOf hcommon hne hclean
  have hauthorizationRead :=
    @readAuthorization_authorizationOf crypto credentials.signing input.scope
      env.timestamp
    _ text ordered hcommon hne hclean
  rw [← hrender] at hauthorizationRead
  have hrecomputed : recomputed wire = some text := by
    obtain ⟨sorted, hsorted, hcanonicalQuery⟩ :=
      wireQuery_canonicalQuery input.query
    obtain ⟨payload, hpayloadGet, hpayloadBytes⟩ :=
      unsignedHeaders_payload hbase
    have hpayloadText :
        wire.headerText "x-amz-content-sha256" = some input.payloadHash := by
      rw [HttpRequest.headerText, hpayload, hpayloadGet, Option.bind_some,
        hpayloadBytes, Lib.utf8Decode_utf8]
    have hsame :
        buildCanonicalRequest input.method
          (pathOf input.target.pathAndQuery) sorted canonical
        input.payloadHash = .ok text := by
      rw [← (canonicalRequest_ok hcanonical).2, buildCanonicalRequest,
        hcanonicalQuery]
      rfl
    have hwireHeaders := wireHeaders_signed hiter hread hordered hnot
    rw [recomputed, htext]
    simp only [hsignedNames, huri, hmethod, hquery, hpath, hsorted,
      hwireHeaders, hcanonicalHeaders, hpayloadText,
      hsame, Option.bind_eq_bind, Option.bind_some, Except.toOption]
  obtain ⟨hdate, htoken⟩ :=
    headerText_insertSignature hinsert
      (hnotMem .amzSecurityToken (by decide)) wire.method
    wire.uri wire.body
  rw [hsigned_eq] at hdate htoken
  have hhost : wire.headers.containsKey "host" = true := by
    obtain ⟨host, hget, -⟩ := unsignedHeaders_host hbase
    rw [HeaderMap.get, ← getAll_insertSignature hinsert (by decide)] at hget
    obtain ⟨n, hn, hmem⟩ := HeaderMap.mem_iter_of_get hget
    exact HeaderMap.containsKey_iff.mpr ⟨_, hmem, hn⟩
  refine ⟨credentials, hcredentials, signedHeaders_fresh hheaders hcredentials,
    ?_, hdate, ?_⟩
  · intro other hother
    obtain rfl := Option.some.inj (htext.symm.trans hother)
    exact ⟨_, hsignedNames, fun name hname => ((hnames name).mp hname).2⟩
  · rintro verifier ⟨rfl, hsecret⟩
    refine ⟨_, _,
      Verifier.verifies_eq_some.mpr ⟨_, _, htext, hauthorizationRead, hdate,
      beforeFirst_amzDate env.timestamp, ⟨?_, ?_⟩, ?_⟩⟩
    · intro entry hentry hmust
      refine (hnames _).mpr
        ⟨?_, HeaderMap.containsKey_iff.mpr ⟨entry, hentry, rfl⟩⟩
      intro heq
      rw [heq] at hmust
      cases hmust
    · exact (hnames _).mpr ⟨by decide, hhost⟩
    · rw [Verifier.signatureFor, htoken, hdate, hrecomputed]
      dsimp only [Credentials.signing]
      rw [hsecret]
      rfl

end Signed

end Verified

/-! ## Where the requests of a run are aimed -/

/-- A target of a call: the endpoint of the client, perhaps at another host,
with the path and the query of the call. -/
structure AimedAt (client : S3Client) (call : SignedSend)
    (target : EndpointUrl) : Prop where
  wellFormed : target.Target
  scheme : target.scheme = client.config.endpoint.url.scheme
  authority : ∃ host, target.authority = client.config.serviceAuthority host
  path : pathOf target.pathAndQuery = call.target.pathAndQuery
  query : (queryOf target.pathAndQuery).getD [] = canonicalQuery call.query

theorem EndpointUrl.Target.path_serialized {url : EndpointUrl}
    (h : url.Target) :
    (splitUri url.serialized).path = pathOf url.pathAndQuery := by
  have hrooted := pathOf_rooted h.rooted
  rw [splitUri_serialized h, Uri.path]
  cases hpath : pathOf url.pathAndQuery with
  | nil =>
      rw [hpath] at hrooted
      cases hrooted
  | cons c rest => rfl

theorem isAuthorityEnd_of_isHostChar {c : Char} (h : isHostChar c = true) :
    isAuthorityEnd c = false := by
  rw [isAuthorityEnd, Bool.or_eq_false_iff, Bool.or_eq_false_iff]
  exact ⟨⟨beq_false_of_ne (hostChar_ne h (by decide)),
    beq_false_of_ne (hostChar_ne h (by decide))⟩,
    beq_false_of_ne (hostChar_ne h (by decide))⟩

theorem Endpoint.objectAuthority_bucket {grammar : UriGrammar} {e : Endpoint}
    {bucket authority : Str}
    (h : e.objectAuthority grammar bucket .virtualHosted = .ok authority) :
    validateVirtualHostBucket bucket = .ok () := by
  rw [objectAuthority] at h
  split at h
  · cases h
  · next hbucket => exact hbucket

/-- The authority of every target is one that a host of the service answers. -/
theorem S3Config.exists_serviceAuthority {config : S3Config}
    {grammar : UriGrammar} {key : Option Str} {target : EndpointUrl}
    (h : config.operationTarget grammar key = .ok target) :
    ∃ host, target.authority = config.serviceAuthority host := by
  obtain ⟨authority, hauthority, hparts⟩ := Endpoint.objectUrl_eq h
  obtain ⟨hparts, -⟩ := EndpointUrl.fromParts_eq hparts
  rw [hparts]
  show ∃ host,
    authority = config.addressingStyle.serviceAuthority config.bucket host
  rw [Endpoint.objectAuthority_eq hauthority]
  cases config.addressingStyle with
  | path => exact ⟨_, rfl⟩
  | virtualHosted => exact ⟨_, rfl⟩

namespace AimedAt

variable {client : S3Client} {call : SignedSend} {key : Option Str}
  {first target : EndpointUrl}

theorem wire (h : AimedAt client call target) :
    (splitUri target.serialized).path = call.target.pathAndQuery ∧
      (queryOf (splitUri target.serialized).pathAndQuery).getD [] =
        canonicalQuery call.query := by
  constructor
  · rw [h.wellFormed.path_serialized, h.path]
  · rw [splitUri_serialized h.wellFormed]
    exact h.query

theorem of_first (hvalid : client.config.endpoint.Valid)
    (htarget : client.config.operationTarget client.grammar key =
      .ok call.target)
    (hfirst : call.target.withQuery client.grammar (canonicalQuery call.query) =
      .ok first) :
    AimedAt client call first := by
  obtain ⟨hurl, hplain⟩ := Endpoint.objectUrl_target hvalid htarget
  obtain ⟨authority, -, hparts⟩ := Endpoint.objectUrl_eq htarget
  have hquery := queryOf_withQuery hfirst
  obtain ⟨-, hfirstParts⟩ := EndpointUrl.withQuery_eq hfirst
  have haimed := hurl.withQuery hfirst
  obtain ⟨hparts, -⟩ := EndpointUrl.fromParts_eq hparts
  obtain ⟨hfirstParts, -⟩ := EndpointUrl.fromParts_eq hfirstParts
  have hwhole : pathOf call.target.pathAndQuery = call.target.pathAndQuery :=
    Lib.beforeFirst_of_not_mem hplain
  refine ⟨haimed, ?_, ?_, ?_, hquery⟩
  · rw [hfirstParts, hparts]
  · rw [hfirstParts]
    obtain ⟨host, hhost⟩ := S3Config.exists_serviceAuthority htarget
    exact ⟨host, hhost⟩
  · rw [hfirstParts]
    dsimp only
    rw [hwhole]
    split
    · exact hwhole
    · exact (pathOf_append_query hplain).1

theorem of_corrected {region : Str} (haimed : AimedAt client call first)
    (htarget : client.config.operationTarget client.grammar key =
      .ok call.target)
    (hcorrected : SendState.Corrected client first target region) :
    AimedAt client call target := by
  obtain ⟨service, hservice, hwith⟩ := hcorrected.exchanged
  obtain ⟨-, variant, suffix, hsuffix, hhost, -⟩ :=
    redirectedAwsAuthority_eq hservice
  have hchars : ∀ c ∈ service, isAuthorityEnd c = false := by
    intro c hc
    rw [hhost] at hc
    exact isAuthorityEnd_of_isHostChar
      (awsHost_chars hcorrected.named hsuffix c hc)
  have hauthority : ∀ c ∈ client.config.serviceAuthority service,
      isAuthorityEnd c = false := by
    obtain ⟨authority, hauthority, -⟩ := Endpoint.objectUrl_eq htarget
    rw [S3Config.serviceAuthority]
    cases hstyle : client.config.addressingStyle with
    | path => exact hchars
    | virtualHosted =>
        rw [hstyle] at hauthority
        have hbucket :=
          validateVirtualHostBucket_chars
            (Endpoint.objectAuthority_bucket hauthority)
        intro c hc
        rcases List.mem_append.mp hc with hc | hc
        · exact isAuthorityEnd_of_isBucketChar (hbucket c hc)
        · rcases List.mem_cons.mp hc with rfl | hc
          · decide
          · exact hchars c hc
  have htargeted := haimed.wellFormed.withAuthority hauthority hwith
  obtain ⟨hparts, -⟩ :=
    EndpointUrl.fromParts_eq (EndpointUrl.withAuthority_eq hwith)
  refine ⟨htargeted, ?_, ⟨service, ?_⟩, ?_, ?_⟩
  · rw [hparts]
    exact haimed.scheme
  · rw [hparts]
  · rw [hparts]
    exact haimed.path
  · rw [hparts]
    exact haimed.query

end AimedAt

/-! ## Bodies that come in whole -/

/-- Nothing went wrong, and the body has ended or all of its declared bytes are
there. -/
def Whole (length : Nat) (outs : List Polled) : Prop :=
  errors outs = 0 ∧
    (.ready none ∈ outs ∨ 0 < length ∧ (yielded outs).length = length)

theorem digest_of_whole {sha : Sha256} {length : Nat} {expected : Bytes}
    {events : List StreamEvent} {k : Nat} (hlength : length < 2 ^ 64)
    (h : Whole length
      (TransportBody.polls sha k
        (TransportBody.new events length expected)).1) :
    (yielded
      (TransportBody.polls sha k
        (TransportBody.new events length expected)).1).length = length ∧
      sha.digest
        (yielded
          (TransportBody.polls sha k
            (TransportBody.new events length expected)).1) =
        expected := by
  obtain ⟨herrors, hwhole⟩ := h
  cases polls_inv sha expected events hlength k with
  | unfinished taken htaken hopen hrunning =>
      exfalso
      rcases hwhole with hend | ⟨hpos, hfull⟩
      · cases (hrunning _ hend).2
      · rcases hopen.short with hshort | ⟨hzero, -⟩
        · omega
        · omega
  | delivered hfinished hremaining hverdict hyield hlen hnone =>
      obtain ⟨flow, rest, rfl, hflow, hexact, hdigest⟩ :=
        delivers_iff.mpr hverdict
      rw [innerBytes_ended rest hflow] at hyield
      rw [hyield]
      exact ⟨hexact, hdigest⟩
  | refused hfinished hverdict hyield hshort hone =>
      rw [hone] at herrors
      cases herrors

/-- The body of a signed request is a fresh one of the length and the digest
that were declared. -/
theorem signedRequest_transport {crypto : Crypto} {env : SigningEnv}
    {input : SignedRequestInput} {wire : HttpRequest}
    (h : (signedRequest crypto env input).1 = .ok wire) :
    match input.body with
    | none => wire.body = TransportBody.empty crypto.sha
    | some body =>
        ∃ items,
            wire.body = TransportBody.new items body.length body.sha256 := by
  rw [signedRequest] at h
  cases hbody : input.body with
  | none =>
      rw [hbody] at h
      dsimp only at h ⊢
      split at h
      · cases h
      · cases h
        rfl
  | some body =>
      rw [hbody] at h
      dsimp only at h ⊢
      split at h
      · cases h
      · cases hopened : body.requestBody env.opened with
        | mk result rest =>
            rw [hopened] at h
            cases result with
            | error e => cases h
            | ok transport =>
                cases h
                rw [PreparedBody.requestBody.eq_def] at hopened
                split at hopened
                · cases hopened
                  exact ⟨_, rfl⟩
                · split at hopened
                  · cases hopened
                  · cases hopened
                    exact ⟨_, rfl⟩
                · cases hopened
                · cases hopened
                  exact ⟨_, rfl⟩

/-- The host that is addressed, the digest and the length of the body are in the
headers. -/
theorem declared_of_signed {crypto : Crypto} {env : SigningEnv}
    {input : SignedRequestInput} {wire : HttpRequest}
    (h : (signedRequest crypto env input).1 = .ok wire) :
    wire.headerText "host" = some input.target.authority ∧
      wire.headerText "x-amz-content-sha256" = some input.payloadHash ∧
      wire.headers.getAll "content-length" =
        input.body.elim (input.headers.getAll "content-length") fun body =>
          [HeaderValue.ofNat body.length] := by
  obtain ⟨hheaders, -, -⟩ := signedRequest_ok h
  obtain ⟨base, -, -, signed, hbase, -, -, -, hinsert⟩ :=
    signedHeaders_eq hheaders
  have hkept : ∀ {name : Str}, name ∉ reservedHeaders →
      wire.headers.getAll name = base.getAll name :=
    fun hname => getAll_insertSignature hinsert hname
  obtain ⟨host, hhost, hhostBytes⟩ := unsignedHeaders_host hbase
  obtain ⟨payload, hpayload, hpayloadBytes⟩ := unsignedHeaders_payload hbase
  refine ⟨?_, ?_, ?_⟩
  · rw [HttpRequest.headerText, HeaderMap.get, hkept (by decide)]
    rw [HeaderMap.get] at hhost
    rw [hhost, Option.bind_some, hhostBytes, Lib.utf8Decode_utf8]
  · rw [HttpRequest.headerText, HeaderMap.get, hkept (by decide)]
    rw [HeaderMap.get] at hpayload
    rw [hpayload, Option.bind_some, hpayloadBytes, Lib.utf8Decode_utf8]
  · rw [hkept (by decide)]
    obtain ⟨_, -, hbase⟩ := Lib.bind_ok hbase
    obtain ⟨_, -, hbase⟩ := Lib.bind_ok hbase
    dsimp only at hbase
    split at hbase
    · next body hsome =>
        cases hbase
        rw [hsome, HeaderMap.getAll_insert, if_pos (by decide)]
        rfl
    · next hnone =>
        cases hbase
        rw [hnone, HeaderMap.getAll_insert, if_neg (by decide),
          HeaderMap.getAll_insert, if_neg (by decide)]
        rfl

theorem headerText_of_signed {crypto : Crypto} {env : SigningEnv}
    {input : SignedRequestInput} {wire : HttpRequest} {name : Str}
    {value : HeaderValue} (h : (signedRequest crypto env input).1 = .ok wire)
    (hname : name ∉ reservedHeaders)
    (hvalue : wire.headers.get name = some value) :
    ∃ text, wire.headerText name = some text := by
  obtain ⟨hheaders, -, -⟩ := signedRequest_ok h
  obtain ⟨base, -, owned, signed, -, -, howned, -, hinsert⟩ :=
    signedHeaders_eq hheaders
  have hbase : base.get name = some value := by
    rw [HeaderMap.get, ← getAll_insertSignature hinsert hname]
    exact hvalue
  obtain ⟨n, -, hmem⟩ := HeaderMap.mem_iter_of_get hbase
  obtain ⟨header, -, -, hread⟩ :=
    Lib.forall₂_left (ownedHeaders_ok howned) _ hmem
  rw [wireHeader, Option.map_eq_some_iff] at hread
  obtain ⟨text, htext, -⟩ := hread
  exact ⟨text, by rw [HttpRequest.headerText, hvalue, Option.bind_some, htext]⟩

/-! ## Every request of a run -/

namespace SendState

variable {client : S3Client} {call : SignedSend} {s : SendState}
  {key : Option Str} {started : Instant}
  {labels : List SendLabel} {t : Transmission}

/-- The input that this request was signed from. -/
def signedInput (client : S3Client) (call : SignedSend) (t : Transmission) :
    SignedRequestInput :=
  ⟨call.method, t.target, call.query, call.headers, call.body,
    call.payloadHash client.crypto, t.signingRegion⟩

/-- The attempt in which a run sent this request, after `earlier` ones: its step
signed the request with what `answer` holds. -/
def SentBy (client : S3Client) (call : SignedSend) (started : Instant)
    (labels : List SendLabel) (earlier : List Transmission) (t : Transmission)
    (answer : SigningEnv) : Prop :=
  ∃ before wait later after m m',
    labels = before ++ .sign wait (some answer) later :: after ∧
    Reaches client call started before m ∧
    step client call m (.sign wait (some answer) later) = some m' ∧
    transmissions m.log = earlier ∧ transmissions m'.log = t :: earlier

/-- The turn that sends a request has signed it from the whole input of the
call. -/
theorem signed_of_turn {m m' : SendState} {label : SendLabel}
    (hm : Reaches client call started labels m)
    (h : Turn client call m label m')
    (hsent : transmissions m'.log = t :: transmissions m.log) :
    ∃ wait answer later, label = .sign wait (some answer) later ∧
    t.target = m.target ∧
      (signedRequest client.crypto answer (signedInput client call t)).1 =
        .ok t.request := by
  cases h with
  | @sent wait later answer request body clock hphase hsigned hnow hclock =>
      rw [transmissions_sent] at hsent
      obtain ⟨rfl, -⟩ := List.cons.inj hsent
      refine ⟨wait, answer, later, rfl, rfl, ?_⟩
      rw [signingInput, body_of_reaches hm hphase] at hsigned
      exact congrArg Prod.fst hsigned
  | _ => exact absurd hsent.symm (List.cons_ne_self _ _)

theorem transmissions_suffix {m : SendState}
    (h : Lib.exec (step client call) m labels = some s) :
    transmissions m.log <:+ transmissions s.log := by
  refine Lib.exec_invariant
    (I := fun s => transmissions m.log <:+ transmissions s.log)
    (fun hstep hs => ?_) h (List.suffix_refl _)
  rcases turn_sends (step_turn hstep) with hsame | ⟨now, _, _, hnow, -⟩
  · rw [hsame]
    exact hs
  · rw [hnow]
    exact hs.trans (List.suffix_cons _ _)

/-- A step of the run made the log so long, and that step sent what stands
there. -/
theorem sent_at {newer older : List Transmission}
    (h : Reaches client call started labels s)
    (hsplit : transmissions s.log = newer ++ t :: older)
    (hnone : transmissions (initial client call started).log = []) :
    ∃ before label after m m', labels = before ++ label :: after ∧
    Reaches client call started before m ∧
      step client call m label = some m' ∧ transmissions m.log = older ∧
      transmissions m'.log = t :: older := by
  have hstart :
      ¬ older.length <
          (transmissions (initial client call started).log).length := by
    rw [hnone]
    exact Nat.not_lt_zero _
  have hend : older.length < (transmissions s.log).length := by
    rw [hsplit, List.length_append, List.length_cons]
    omega
  obtain ⟨before, label, after, m, m', rfl, hbefore, hstep, hnot, hlong⟩ :=
    Lib.exec_turning
      (T := fun s => older.length < (transmissions s.log).length) h hstart hend
  refine ⟨before, label, after, m, m', rfl, hbefore, hstep, ?_⟩
  have hafter : Lib.exec (step client call) m' after = some s := by
    rw [← Lib.exec_of_step hstep, ← Lib.exec_append _ hbefore]
    exact h
  have hsuffix := transmissions_suffix hafter
  have hown : t :: older <:+ transmissions s.log := by
    rw [hsplit]
    exact List.suffix_append _ _
  rcases turn_sends (step_turn hstep) with hsame | ⟨now, _, _, hnow, -⟩
  · rw [hsame] at hlong
    exact absurd hlong hnot
  · rw [hnow] at hsuffix hlong ⊢
    rw [List.length_cons] at hlong
    have hlength :
        (now :: transmissions m.log).length = (t :: older).length := by
      rw [List.length_cons, List.length_cons]
      omega
    have hwhole :=
      (List.suffix_of_suffix_length_le hsuffix hown hlength.le).eq_of_length
        hlength
    exact ⟨(List.cons.inj hwhole).2, hwhole⟩

/-- **Every request of a run was signed in the attempt that sent it**, and was
aimed where the loop then aimed. -/
theorem signed_of_reaches {newer older : List Transmission}
    (hvalid : client.config.endpoint.Valid)
    (htarget : client.config.operationTarget client.grammar key =
      .ok call.target)
    (h : Reaches client call started labels s)
    (hsplit : transmissions s.log = newer ++ t :: older) :
    ∃ answer, SentBy client call started labels older t answer ∧
    AimedAt client call t.target ∧
      (signedRequest client.crypto answer (signedInput client call t)).1 =
        .ok t.request := by
  cases hfirst :
      call.target.withQuery client.grammar (canonicalQuery call.query) with
  | error e =>
      rw [(reaches_of_error hfirst h).2] at hsplit
      exact absurd hsplit.symm
        (List.append_ne_nil_of_right_ne_nil _ (List.cons_ne_nil _ _))
  | ok first =>
      have hnone : transmissions (initial client call started).log = [] := by
        rw [initial_eq hfirst]
        rfl
      obtain ⟨before, label, after, m, m', hlabels, hbefore, hstep, hm, hm'⟩ :=
        sent_at h hsplit hnone
      obtain ⟨wait, answer, later, rfl, haimed, hsigned⟩ :=
        signed_of_turn hbefore (step_turn hstep)
          (hm'.trans (congrArg (t :: ·) hm.symm))
      refine ⟨answer,
        ⟨before, wait, later, after, m, m', hlabels, hbefore, hstep, hm, hm'⟩,
          ?_, hsigned⟩
      have hfirstAimed := AimedAt.of_first hvalid htarget hfirst
      rw [haimed]
      cases aims_of_reaches hfirst hbefore with
      | configured hredirected hat => exact hat ▸ hfirstAimed
      | corrected hredirected hcorrected =>
          exact hfirstAimed.of_corrected htarget hcorrected

/-- The declared length of the body of a call. -/
def declaredLength (call : SignedSend) : Nat :=
  call.body.elim 0 PreparedBody.length

theorem received_of_signed {env : SigningEnv} {k : Nat}
    (h : (signedRequest client.crypto env (signedInput client call t)).1 =
      .ok t.request)
    (hwhole :
    Whole (declaredLength call)
      (TransportBody.polls client.crypto.sha k t.request.body).1) :
    (yielded
      (TransportBody.polls client.crypto.sha k t.request.body).1).length =
        declaredLength call ∧
      payloadSha256Hex client.crypto
        (yielded (TransportBody.polls client.crypto.sha k t.request.body).1) =
        call.payloadHash client.crypto := by
  have hbody := signedRequest_transport h
  rw [SignedSend.payloadHash]
  rw [declaredLength] at hwhole ⊢
  cases hdeclared : call.body with
  | none =>
      rw [hdeclared] at hwhole
      have hempty : t.request.body = TransportBody.empty client.crypto.sha := by
        simpa only [signedInput, hdeclared] using hbody
      rw [hempty] at hwhole ⊢
      obtain ⟨hlength, hdigest⟩ := digest_of_whole (by decide) hwhole
      refine ⟨hlength, ?_⟩
      rw [payloadSha256Hex]
      exact congrArg hexEncode hdigest
  | some body =>
      rw [hdeclared] at hwhole
      obtain ⟨items, hitems⟩ :
          ∃ items,
              t.request.body =
                  TransportBody.new items body.length body.sha256 := by
        simpa only [signedInput, hdeclared] using hbody
      rw [hitems] at hwhole ⊢
      obtain ⟨hlength, hdigest⟩ := digest_of_whole body.bounded hwhole
      exact ⟨hlength, congrArg hexEncode hdigest⟩

/-- The transport has no objection: the scheme of a target is that of the
endpoint. -/
theorem outgoing_of_aimed {transport : Transport} {userAgent : Str}
    (htransport : client.newTransport userAgent = .ok transport)
    (haimed : AimedAt client call t.target)
    (huri : t.request.uri = t.target.serialized) : ∃ headers,
      transport.outgoing t.request = .ok { t.request with headers := headers } ∧
        ∀ name, name ≠ HeaderName.userAgent.text →
            headers.getAll name = t.request.headers.getAll name := by
  have hallow : transport.allowHttp = !client.config.endpoint.isHttps := by
    rw [S3Client.newTransport, Transport.new] at htransport
    split at htransport
    · cases htransport
      rfl
    · cases htransport
  have hscheme :
      (splitUri t.request.uri).scheme =
          some client.config.endpoint.url.scheme := by
    rw [huri, splitUri_serialized haimed.wellFormed, haimed.scheme]
  have hpermitted : ¬ (¬ (splitUri t.request.uri).scheme = some "https".toList ∧
      (transport.allowHttp = false ∨
          (splitUri t.request.uri).scheme ≠ some "http".toList)) := by
    rw [hscheme, hallow, Endpoint.isHttps]
    have hknown := haimed.wellFormed.scheme
    rw [haimed.scheme] at hknown
    rcases hknown with hhttp | hhttps
    · rw [hhttp]
      decide
    · rw [hhttps]
      exact fun h => h.1 rfl
  rw [Transport.outgoing, if_neg hpermitted]
  split
  · exact ⟨_, rfl, fun _ _ => rfl⟩
  · refine ⟨_, rfl, ?_⟩
    intro name hname
    exact (HeaderMap.getAll_insert ..).trans (if_neg hname)

/-- A service that knows the credentials which the attempt was given takes what
the transport sends as theirs, with the time at which the attempt signed and in
the region that it was sent to, and takes every body that came in whole. -/
def Admitted (client : S3Client) (transport : Transport) (call : SignedSend)
    (started : Instant) (labels : List SendLabel) (earlier : List Transmission)
    (t : Transmission) : Prop :=
  ∃ answer credentials out, SentBy client call started labels earlier t answer ∧
    answer.credentials = .ok credentials ∧
      credentials.expiresBy answer.now = false ∧
    transport.outgoing t.request = .ok out ∧
    out.headerText "x-amz-date" = some (formatTimestamp answer.timestamp).1 ∧
    ∀ verifier : Verifier, verifier.Knows client.crypto credentials →
      ∃ authorization,
      authorization.accessKeyId = credentials.accessKeyId ∧
      authorization.date = (formatTimestamp answer.timestamp).2 ∧
      authorization.scope = ⟨t.signingRegion, "s3"⟩ ∧
      verifier.verifies out = some authorization ∧
      ∀ k, Whole (declaredLength call)
        (TransportBody.polls client.crypto.sha k out.body).1 →
        verifier.Admits out authorization
          (yielded (TransportBody.polls client.crypto.sha k out.body).1)

/-- **A request that was signed in a run is admitted.** -/
theorem admitted_of_reaches {transport : Transport} {userAgent : Str}
    {newer older : List Transmission} (hvalid : client.config.endpoint.Valid)
    (htarget : client.config.operationTarget client.grammar key =
      .ok call.target)
    (hfree : call.headers.getAll "content-length" = [])
    (htransport : client.newTransport userAgent = .ok transport)
    (h : Reaches client call started labels s)
    (hsplit : transmissions s.log = newer ++ t :: older) :
    Admitted client transport call started labels older t := by
  obtain ⟨answer, hsent, haimed, hsigned⟩ :=
    signed_of_reaches hvalid htarget h hsplit
  obtain ⟨hpath, hquery⟩ := haimed.wire
  obtain ⟨credentials, hcredentials, hfresh, hby⟩ :=
    signedBy_of_signed hsigned (hpath.trans haimed.path.symm) hquery
  obtain ⟨headers, hout, hheaders⟩ :=
    outgoing_of_aimed htransport haimed (signedRequest_ok hsigned).2.2
  have hdated :
      HttpRequest.headerText
        { t.request with headers := headers } "x-amz-date" =
      some (formatTimestamp answer.timestamp).1 := by
    rw [← hby.dated, HttpRequest.headerText, HeaderMap.get,
      hheaders _ (by decide)]
    rfl
  refine ⟨answer, credentials, _, hsent, hcredentials, hfresh, hout, hdated, ?_⟩
  intro verifier hknows
  obtain ⟨names, signature, hverified⟩ := hby.verified verifier hknows
  have hverified := Verifier.verifies_outgoing hout hby.own hverified
  refine ⟨_, rfl, rfl, rfl, hverified, ?_⟩
  intro k hwhole
  obtain ⟨hlength, hdigest⟩ := received_of_signed hsigned hwhole
  obtain ⟨-, hpayload, hdeclared⟩ := declared_of_signed hsigned
  refine ⟨hverified, ?_, ?_⟩
  · rw [HttpRequest.headerText, HeaderMap.get, hheaders _ (by decide),
      hknows.crypto, hdigest]
    exact hpayload
  · intro text htext
    rw [HttpRequest.headerText, HeaderMap.get, hheaders _ (by decide),
      hdeclared] at htext
    rw [hlength, declaredLength]
    dsimp only [signedInput] at htext
    cases hcall : call.body with
    | none =>
        rw [hcall, Option.elim_none, hfree] at htext
        cases htext
    | some body =>
        rw [hcall] at htext
        have hdecimal : Lib.utf8Decode (HeaderValue.ofNat body.length).bytes =
          some text := htext
        rw [HeaderValue.ofNat, Lib.utf8Decode_utf8] at hdecimal
        exact (Option.some.inj hdecimal).symm

end SendState

end S3Wire
