/-
# `S3Wire.Client.Grant` — what a presigned URL is good for

The other end of `src/client/presign.rs`.  Whoever holds a presigned URL may
send it with headers of their own; nothing but the host of the URL was signed.  A
service takes the query apart (`readGrant`), builds the canonical request from
the request and compares signatures (`Verifier.grants`).

`presigned_grants`: for each of the seven kinds of URL, a request by the method
of the URL is granted exactly when its bearer has added no header that would
have to be signed, and then the service reads it as the one action that the URL
was made for, on the one key, upload and part.
-/
import S3Wire.Client.Operation.Dispatch
import S3Wire.Client.Presign
import S3Wire.Signing.Headers

namespace S3Wire

/-! ## The seven kinds of URL -/

/-- The `presigned_*` functions of the client, with what each takes. -/
inductive PresignedOperation where
  | get (key : ObjectKey)
  | put (key : ObjectKey)
  | head (key : ObjectKey)
  | delete (key : ObjectKey)
  | createMultipartUpload (key : ObjectKey)
  | uploadPart (key : ObjectKey) (uploadId : UploadId) (partNumber : PartNumber)
  | abortMultipartUpload (key : ObjectKey) (uploadId : UploadId)

namespace PresignedOperation

/-- The functions of `S3Client`, one for each. -/
def presigned (crypto : Crypto) (grammar : UriGrammar) (config : S3Config)
    (env : PresignEnv) (expires : Duration) :
    PresignedOperation → Except S3Error Str
  | get key => presignedGet crypto grammar config env key expires
  | put key => presignedPut crypto grammar config env key expires
  | head key => presignedHead crypto grammar config env key expires
  | delete key => presignedDelete crypto grammar config env key expires
  | createMultipartUpload key =>
      presignedCreateMultipartUpload crypto grammar config env key expires
  | uploadPart key uploadId partNumber =>
      presignedUploadPart crypto grammar config env key uploadId partNumber
        expires
  | abortMultipartUpload key uploadId =>
      presignedAbortMultipartUpload crypto grammar config env key uploadId
        expires

/-- The method that each presigned URL is signed for. -/
def method : PresignedOperation → Str
  | get _ => "GET"
  | put _ => "PUT"
  | head _ => "HEAD"
  | delete _ => "DELETE"
  | createMultipartUpload _ => "POST"
  | uploadPart _ _ _ => "PUT"
  | abortMultipartUpload _ _ => "DELETE"

/-- The object that each presigned URL is for. -/
def key : PresignedOperation → ObjectKey
  | get key => key
  | put key => key
  | head key => key
  | delete key => key
  | createMultipartUpload key => key
  | uploadPart key _ _ => key
  | abortMultipartUpload key _ => key

/-- The parameters that tell the operations apart. -/
def fields : PresignedOperation → List (Str × Option Str)
  | get _ => []
  | put _ => []
  | head _ => []
  | delete _ => []
  | createMultipartUpload _ => [("uploads", some [])]
  | uploadPart _ uploadId partNumber =>
      [("partNumber", some (decimal partNumber.get)),
        ("uploadId", some uploadId.text)]
  | abortMultipartUpload _ uploadId => [("uploadId", some uploadId.text)]

/-- The action that the URL is made for. -/
def action : PresignedOperation → Action
  | get key => .getObject key.text none
  | put key => .putObject key.text
  | head key => .headObject key.text none
  | delete key => .deleteObject key.text none
  | createMultipartUpload key => .createMultipartUpload key.text
  | uploadPart key uploadId partNumber =>
      .uploadPart key.text uploadId.text (decimal partNumber.get)
  | abortMultipartUpload key uploadId =>
      .abortMultipartUpload key.text uploadId.text

variable {crypto : Crypto} {grammar : UriGrammar} {config : S3Config}
  {env : PresignEnv} {expires : Duration}

theorem presigned_eq (operation : PresignedOperation) :
    operation.presigned crypto grammar config env expires =
      presign crypto grammar config env operation.method operation.key
        (fieldsQuery operation.fields) expires := by
  cases operation <;> rfl

end PresignedOperation

/-! ## What a service reads of the query -/

/-- What a presigned query says, as the service reads it back. -/
structure Grant where
  accessKeyId : Str
  date : Str
  scope : SigningScope
  amzDate : Str
  /-- In seconds from that date. -/
  expires : Str
  sessionToken : Option Str
  signedNames : List Str
  signature : Str

/-- The grant in a query; `none` when a parameter is missing or malformed. -/
def readGrant (query : List QueryParam) : Option Grant := do
  let (accessKeyId, date, scope) ← (← param "X-Amz-Credential" query) |>
    readCredential
  let amzDate ← param "X-Amz-Date" query
  let expires ← param "X-Amz-Expires" query
  let names ← param "X-Amz-SignedHeaders" query
  let signature ← param "X-Amz-Signature" query
  if param "X-Amz-Algorithm" query = some algorithm then
    some ⟨accessKeyId, date, scope, amzDate, expires,
      param "X-Amz-Security-Token" query, names.splitOn ';', signature⟩
  else none

/-- What a request with this grant was signed over. -/
def HttpRequest.grantText (request : HttpRequest) (query : List QueryParam)
    (grant : Grant) : Option Str := do
  let headers ← wireHeaders request.headers grant.signedNames
  let canonical ← (canonicalHeaders headers).toOption
  let rest := query.filter fun parameter => parameter.name != signatureName
  (buildCanonicalRequest request.method
    (splitUri request.uri).path rest canonical unsignedPayload).toOption

namespace Verifier

variable (verifier : Verifier) (request : HttpRequest)

/-- The signature that a request with this grant ought to have. -/
def signatureOf (query : List QueryParam) (grant : Grant) : Option Str := do
  let secret ← verifier.secretOf grant.accessKeyId grant.sessionToken
  let text ← request.grantText query grant
  let credentials : SigningCredentials := ⟨grant.accessKeyId, secret, none⟩
  return calculateSignature verifier.crypto credentials grant.scope grant.date
    grant.amzDate
    (credentialScope grant.date grant.scope) text

/-- Whose URL the request was made from, when nothing was added that had to be
signed. -/
def grants : Option Grant := do
  let query ← wireQuery ((queryOf (splitUri request.uri).pathAndQuery).getD [])
  let grant ← readGrant query
  let covered := request.headers.iter.all fun entry =>
    !mustBeSigned entry.1.text || grant.signedNames.contains entry.1.text
  if covered = true ∧ grant.signedNames.contains "host".toList = true ∧
      Lib.beforeFirst 'T' grant.amzDate = grant.date ∧
      verifier.signatureOf request query grant = some grant.signature then
        some grant
  else none

end Verifier

/-- A request by the bearer of a URL: headers and body are the bearer's own. -/
structure Borne (method url authority : Str) (request : HttpRequest) :
    Prop where
  method : request.method = method
  uri : request.uri = url
  host : ∃ value, request.headers.getAll "host" = [value] ∧
    value.bytes = Lib.utf8 authority

/-- The bearer has added a header that would have to be signed. -/
def Meddled (request : HttpRequest) : Prop :=
  ∃ entry ∈ request.headers.iter, "x-amz-".toList.isPrefixOf entry.1.text = true

/-! ## Parameters, in any order -/

/-- The parameters of the signature. -/
def signingFields (credentials : SigningCredentials) (credential amzDate : Str)
    (expires : Nat) (signed : Str) :
    List (Str × Option Str) :=
  [("X-Amz-Algorithm", some algorithm), ("X-Amz-Credential", some credential),
    ("X-Amz-Date", some amzDate),
    ("X-Amz-Expires", some (decimal expires)),
      ("X-Amz-SignedHeaders", some signed),
    ("X-Amz-Security-Token", credentials.sessionToken)]

/-- A query says these fields, and perhaps a signature. -/
structure Says (query : List QueryParam) (fields : List (Str × Option Str)) :
    Prop where
  said : ∀ {name : Str} {value : Option Str}, (name, value) ∈ fields →
    param name query = value
  silent : ∀ {name : Str}, name ∉ fields.map Prod.fst → name ≠ signatureName →
    param name query = none

section Fields

variable {credentials : SigningCredentials}
  {credential amzDate signed signature : Str} {expires : Nat}
  {query : List QueryParam}

theorem fieldsQuery_append (fields fields' : List (Str × Option Str)) :
    fieldsQuery (fields ++ fields') = fieldsQuery fields ++
      fieldsQuery fields' :=
  List.flatMap_append

/-- The parameters that the signer adds. -/
def signingNames : List Str :=
  ["X-Amz-Algorithm", "X-Amz-Credential", "X-Amz-Date", "X-Amz-Expires",
    "X-Amz-SignedHeaders",
    "X-Amz-Security-Token"]

theorem signingFields_names :
    (signingFields credentials credential amzDate expires signed).map Prod.fst =
      signingNames := rfl

theorem fieldsQuery_signing :
    fieldsQuery (signingFields credentials credential amzDate expires signed) =
    signingParameters credentials credential amzDate expires signed := by
  obtain ⟨accessKeyId, secret, token⟩ := credentials
  cases token with
  | none => rfl
  | some token => rfl

theorem namedParams_filter {name : Str} (h : name ≠ signatureName) :
    namedParams name
      (query.filter fun parameter => parameter.name != signatureName) =
        namedParams name query := by
  rw [namedParams, namedParams, List.filter_filter]
  refine List.filter_congr ?_
  intro parameter _
  by_cases hname : parameter.name = name
  · subst hname
    rw [decide_eq_true rfl, Bool.true_and]
    exact bne_iff_ne.mpr h
  · rw [decide_eq_false hname, Bool.false_and]

/-- Without its signature the query is a list of the fields, in some order. -/
theorem says_of_perm {fields : List (Str × Option Str)}
    (hdistinct : (fields.map Prod.fst).Nodup)
    (hunsigned : signatureName ∉ fields.map Prod.fst)
    (hperm :
    (query.filter fun parameter => parameter.name != signatureName).Perm
      (fieldsQuery fields)) :
    Says query fields := by
  have hparam : ∀ {name : Str}, name ≠ signatureName →
      param name query =
          param name
              (query.filter fun parameter =>
                  parameter.name != signatureName) := by
    intro name hother
    rw [param, param, namedParams_filter hother]
  constructor
  · intro name value hmem
    have hother : name ≠ signatureName := by
      rintro rfl
      exact hunsigned (List.mem_map_of_mem hmem)
    rw [hparam hother]
    exact param_of_perm hdistinct hperm hmem
  · intro name hnot hother
    rw [hparam hother]
    exact param_of_not_mem hperm hnot

namespace PresignedOperation

theorem fields_names (operation : PresignedOperation) :
    operation.fields.map Prod.fst ∈
    ([[], ["uploads".toList], ["partNumber".toList, "uploadId".toList],
      ["uploadId".toList]] : List (List Str)) := by
  cases operation with
  | createMultipartUpload key => exact .tail _ (.head _)
  | uploadPart key uploadId partNumber => exact .tail _ (.tail _ (.head _))
  | abortMultipartUpload key uploadId =>
      exact .tail _ (.tail _ (.tail _ (.head _)))
  | _ => exact .head _

theorem fields_distinct (operation : PresignedOperation) :
    ((operation.fields ++
      signingFields credentials credential amzDate expires signed).map
        Prod.fst).Nodup ∧
      signatureName ∉
        (operation.fields ++
          signingFields credentials credential amzDate expires signed).map
        Prod.fst := by
  have hall :
      ∀ names ∈ ([[], ["uploads".toList],
          ["partNumber".toList, "uploadId".toList], ["uploadId".toList]] :
      List (List Str)), (names ++ signingNames).Nodup ∧
        signatureName ∉ names ++ signingNames := by decide
  rw [List.map_append, signingFields_names]
  exact hall _ operation.fields_names

theorem read_action (operation : PresignedOperation)
    (hsaid :
    Says query
      (operation.fields ++
        signingFields credentials credential amzDate expires signed)) :
    objectAction operation.method operation.key.text query none =
      some operation.action := by
  have hread : ∀ {name : Str} {value : Option Str},
      (name, value) ∈ operation.fields → param name query = value :=
    fun hmem => hsaid.said (List.mem_append_left _ hmem)
  have hmissing : ∀ {name : Str}, name ∉ operation.fields.map Prod.fst →
      name ∉ signingNames →
      name ≠ signatureName → param name query = none := by
    intro name hfields hsigning hother
    refine hsaid.silent ?_ hother
    rw [List.map_append, signingFields_names, List.mem_append]
    exact not_or_intro hfields hsigning
  cases operation with
  | get key =>
      have hupload :=
        @hmissing "uploadId" List.not_mem_nil (by decide) (by decide)
      have hversion :=
        @hmissing "versionId" List.not_mem_nil (by decide) (by decide)
      rw [objectAction, hupload, hversion]
      rfl
  | put key =>
      have hupload :=
        @hmissing "uploadId" List.not_mem_nil (by decide) (by decide)
      have hpart :=
        @hmissing "partNumber" List.not_mem_nil (by decide) (by decide)
      show putAction key.text query none = _
      rw [putAction.eq_def, hupload, hpart]
      rfl
  | head key =>
      have hversion :=
        @hmissing "versionId" List.not_mem_nil (by decide) (by decide)
      show some (Action.headObject key.text (param "versionId" query)) = _
      rw [hversion]
      rfl
  | delete key =>
      have hupload :=
        @hmissing "uploadId" List.not_mem_nil (by decide) (by decide)
      have hversion :=
        @hmissing "versionId" List.not_mem_nil (by decide) (by decide)
      rw [objectAction, hupload, hversion]
      rfl
  | createMultipartUpload key =>
      have hupload :=
        @hmissing "uploadId" (by simp [fields]) (by decide) (by decide)
      have huploads := @hread "uploads" (some []) (List.mem_singleton_self _)
      rw [objectAction, hupload, huploads]
      rfl
  | uploadPart key uploadId partNumber =>
      have hupload := @hread "uploadId" (some uploadId.text) (.tail _ (.head _))
      have hpart :=
        @hread "partNumber" (some (decimal partNumber.get)) (.head _)
      show putAction key.text query none = _
      rw [putAction.eq_def, hupload, hpart]
      rfl
  | abortMultipartUpload key uploadId =>
      have hupload := @hread "uploadId" (some uploadId.text) (.head _)
      rw [objectAction, hupload]
      rfl

end PresignedOperation

/-- The grant of a presigned query is read from it, in whatever order it is
written. -/
theorem readGrant_eq {fields : List (Str × Option Str)} {scope : SigningScope}
    {date : Str}
    (hsaid : Says query (fields ++ signingFields credentials
      (credentials.accessKeyId ++ '/' :: credentialScope date scope) amzDate
        expires "host"))
    (hkey : '/' ∉ credentials.accessKeyId) (hdate : '/' ∉ date)
    (hregion : '/' ∉ scope.region) (hservice : '/' ∉ scope.service) :
    readGrant query = (param signatureName query).map fun signature =>
      ⟨credentials.accessKeyId, date, scope, amzDate,
      decimal expires, credentials.sessionToken, ["host".toList],
        signature⟩ := by
  have hread : ∀ {name : Str} {value : Option Str},
      (name, value) ∈ signingFields credentials
      (credentials.accessKeyId ++ '/' :: credentialScope date scope) amzDate
        expires "host" →
        param name query = value :=
    fun hmem => hsaid.said (List.mem_append_right _ hmem)
  have halgorithm := @hread "X-Amz-Algorithm" (some algorithm) (.head _)
  have hcredential := @hread "X-Amz-Credential" _ (.tail _ (.head _))
  have hamzDate :=
    @hread "X-Amz-Date" (some amzDate) (.tail _ (.tail _ (.head _)))
  have hexpires :=
    @hread "X-Amz-Expires" (some (decimal expires))
      (.tail _ (.tail _ (.tail _ (.head _))))
  have hnames := @hread "X-Amz-SignedHeaders" (some "host".toList)
    (.tail _ (.tail _ (.tail _ (.tail _ (.head _)))))
  have htoken := @hread "X-Amz-Security-Token" credentials.sessionToken
    (.tail _ (.tail _ (.tail _ (.tail _ (.tail _ (.head _))))))
  have hsplit : "host".toList.splitOn ';' = ["host".toList] := by decide
  rw [readGrant, hcredential, hamzDate, hexpires, hnames, halgorithm, htoken]
  dsimp only [Option.bind_eq_bind, Option.bind_some]
  rw [readCredential_eq hkey hdate hregion hservice]
  dsimp only [Option.bind_some]
  rw [hsplit]
  show (param signatureName query).bind _ = _
  cases param signatureName query with
  | none => rfl
  | some signature =>
      rw [Option.bind_some, if_pos rfl]
      rfl

end Fields

/-! ## The one header that is signed -/

section Host

theorem HeaderMap.iter_getAll (headers : HeaderMap) (name : Str) :
    (headers.iter.filter fun entry => entry.1.text == name).map Prod.snd =
      headers.getAll name := by
  obtain ⟨entries, nodup, filled⟩ := headers
  rw [iter, getAll]
  dsimp only
  clear filled
  induction entries with
  | nil => rfl
  | cons e es ih =>
      obtain ⟨hfirst, hrest⟩ := List.nodup_cons.mp nodup
      rw [List.flatMap_cons, List.filter_append, List.map_append]
      cases hname : e.1.text == name with
      | true =>
          -- no other entry has the name
          have hothers :
              ((es.flatMap fun e => e.2.map fun v => (e.1, v)).filter
                fun entry => entry.1.text == name) =
              [] := by
            rw [List.filter_eq_nil_iff]
            intro entry hentry hsame
            obtain ⟨other, hother, hvalue⟩ := List.mem_flatMap.mp hentry
            obtain ⟨v, -, rfl⟩ := List.mem_map.mp hvalue
            have heq : other.1 = e.1 :=
              HeaderName.ext_text
                ((beq_iff_eq.mp hsame).trans (beq_iff_eq.mp hname).symm)
            exact hfirst (heq ▸ List.mem_map_of_mem hother)
          have hown :
              ((e.2.map fun v => (e.1, v)).filter fun entry =>
                entry.1.text == name) =
              e.2.map fun v => (e.1, v) := by
            rw [List.filter_eq_self]
            intro entry hentry
            obtain ⟨v, -, rfl⟩ := List.mem_map.mp hentry
            exact hname
          rw [hothers, hown, List.find?_cons, hname, List.map_map, List.map_nil,
            List.append_nil]
          exact List.map_id _
      | false =>
          have hown :
              ((e.2.map fun v => (e.1, v)).filter fun entry =>
                  entry.1.text == name) = [] := by
            rw [List.filter_eq_nil_iff]
            intro entry hentry
            obtain ⟨v, -, rfl⟩ := List.mem_map.mp hentry
            rw [hname]
            exact Bool.false_ne_true
          rw [hown, List.find?_cons, hname, List.map_nil, List.nil_append]
          exact ih hrest

theorem wireHeaders_host {headers : HeaderMap} {value : HeaderValue}
    {authority : Str} (hhost : headers.getAll "host" = [value])
    (hbytes : value.bytes = Lib.utf8 authority) :
    wireHeaders headers ["host"] = some [⟨"host", authority⟩] := by
  have hvalues := HeaderMap.iter_getAll headers "host"
  have hfilter :
      (headers.iter.filter fun entry =>
        (["host"] : List Str).contains entry.1.text) =
      headers.iter.filter fun entry => entry.1.text == "host".toList := by
    refine List.filter_congr ?_
    intro entry _
    rw [List.contains_cons, List.contains_nil, Bool.or_false]
  rw [wireHeaders, hfilter]
  rw [hhost] at hvalues
  obtain ⟨entry, hentry, hsecond⟩ := List.map_eq_singleton_iff.mp hvalues
  have hmem : entry ∈ headers.iter.filter fun entry =>
      entry.1.text == "host".toList := by
    rw [hentry]
    exact List.mem_singleton_self _
  have hname : entry.1.text = "host".toList :=
    beq_iff_eq.mp (List.mem_filter.mp hmem).2
  obtain ⟨name, given⟩ := entry
  obtain rfl : given = value := hsecond
  have hread := @wireHeader_utf8 name given authority hbytes
  rw [hentry, List.mapM_cons, hread, List.mapM_nil, hname]
  rfl

theorem canonicalHeaders_host {authority : Str} {headers : CanonicalHeaders}
    (h : canonicalHeaders [⟨"host", authority⟩] = .ok headers) :
    headers = renderHeaders [("host".toList, [normalized authority])] ∧
    '\n' ∉ normalized authority := by
  obtain ⟨ordered, hordered, -, hclean, rfl⟩ := canonicalHeaders_ok h
  rw [orderHeaders] at hordered
  split at hordered
  · cases hordered
  rw [normalizeHeaderValue_eq] at hordered
  split at hordered
  · cases hordered
  next value hvalue =>
  cases hordered
  split at hvalue
  · cases hvalue
  · cases hvalue
    exact ⟨rfl, (hclean _ (.head _)).2.2 _ (.head _)⟩

/-- Where the host is the only header, it is what the names say. -/
theorem signed_of_host {authority : Str} {headers : CanonicalHeaders}
    (h : canonicalHeaders [⟨"host", authority⟩] = .ok headers) :
    headers.signed = "host".toList := by
  obtain ⟨rfl, -⟩ := canonicalHeaders_host h
  rfl

theorem plain_of_signPresigned {crypto : Crypto}
    {credentials : SigningCredentials} {scope : SigningScope}
    {request : PresigningRequest} {timestamp : DateTime} {query : Str}
    (h : signPresigned crypto credentials scope request timestamp = .ok query) :
    '#' ∉ query := by
  obtain ⟨_, -, h⟩ := Lib.bind_ok h
  obtain ⟨_, -, h⟩ := Lib.bind_ok h
  obtain ⟨_, -, h⟩ := Lib.bind_ok h
  cases h
  have hhex : ∀ n < 16, lowerHexDigit n ≠ '#' := by decide
  have hlabel : '#' ∉ "&X-Amz-Signature=".toList := by decide
  rw [List.mem_append, List.mem_append]
  rintro ((hmem | hmem) | hmem)
  · exact not_mem_canonicalQuery (by decide) (by decide) (by decide) hmem
  · exact hlabel hmem
  · exact forall_mem_hexEncode (P := fun c => c ≠ '#') hhex _ '#' hmem rfl

end Host

/-! ## What is granted -/

section Granted

variable {crypto : Crypto} {credentials : SigningCredentials}
  {scope : SigningScope} {timestamp : DateTime}
  {target : EndpointUrl} {method signed : Str} {query : List QueryParam}
  {expires : Duration} {request : HttpRequest}

theorem splitUri_presigned (htarget : target.Target)
    (hplain : '?' ∉ target.pathAndQuery) (hsigned : '#' ∉ signed) :
    (splitUri (target.serialized ++ '?' :: signed)).authority =
      some target.authority ∧
      (splitUri (target.serialized ++ '?' :: signed)).path =
        target.pathAndQuery ∧
      queryOf (splitUri (target.serialized ++ '?' :: signed)).pathAndQuery =
        some signed := by
  obtain ⟨hpath, hquery⟩ :=
    @pathOf_append_query target.pathAndQuery signed hplain
  have hurl :
      EndpointUrl.Target
        ⟨target.serialized ++ '?' :: signed, target.scheme, target.authority,
      target.pathAndQuery ++ '?' :: signed⟩ := by
    refine ⟨?_, htarget.scheme, htarget.authority, ?_, ?_⟩
    · dsimp only
      rw [htarget.serialized, List.append_assoc]
    · dsimp only
      rw [List.head?_append, htarget.rooted]
      rfl
    · dsimp only
      rw [List.mem_append, List.mem_cons]
      rintro (hmem | hmem | hmem)
      · exact htarget.fragment hmem
      · cases hmem
      · exact hsigned hmem
  have hsplit := splitUri_serialized hurl
  have hread := hurl.path_serialized
  dsimp only at hsplit hread
  rw [hread, hpath, hsplit]
  exact ⟨rfl, rfl, hquery⟩

/-- The request that the bearer of a query sends was signed over the text of the
query. -/
theorem grantText_borne {rest : List QueryParam} {headers : CanonicalHeaders}
    {text authority : Str} {grant : Grant}
    (hpresigned :
    Presigned crypto credentials scope
      (presigningRequest target method query expires) timestamp signed
      rest headers text)
    (hauthority : target.authority = authority)
    (hmethod : request.method = method)
    (hpath : (splitUri request.uri).path = target.pathAndQuery)
    (hhost : ∃ value, request.headers.getAll "host" = [value] ∧
      value.bytes = Lib.utf8 authority)
    (hnames : grant.signedNames = ["host".toList]) :
    request.grantText
      (rest ++ [signatureParam crypto credentials scope timestamp text]) grant =
        some text := by
  obtain ⟨value, hvalue, hbytes⟩ := hhost
  obtain ⟨uri, huri, hline⟩ := hpresigned.line
  have hwire := wireHeaders_host hvalue hbytes
  have hsame :
      buildCanonicalRequest request.method
        (splitUri request.uri).path rest headers unsignedPayload =
      .ok text := by
    have huri : canonicalUriFromEncoded target.pathAndQuery = .ok uri := huri
    rw [buildCanonicalRequest, hpath, huri, hmethod, hline]
    rfl
  have hcanonical : canonicalHeaders [⟨"host", authority⟩] = .ok headers := by
    rw [← hauthority]
    exact hpresigned.canonical
  rw [HttpRequest.grantText, hnames, hwire]
  dsimp only [Option.bind_eq_bind, Option.bind_some]
  rw [hcanonical, hpresigned.removed]
  dsimp only [Except.toOption, Option.bind_some]
  rw [hsame]

theorem covered_iff : (request.headers.iter.all fun entry =>
    !mustBeSigned entry.1.text ||
        (["host".toList] : List Str).contains entry.1.text) = true ↔
            ¬ Meddled request := by
  rw [List.all_eq_true, Meddled]
  push Not
  refine forall₂_congr fun entry _ => ?_
  rw [List.contains_cons, List.contains_nil, Bool.or_false, mustBeSigned]
  cases hhost : entry.1.text == "host".toList with
  | true =>
      rw [beq_iff_eq.mp hhost]
      decide
  | false =>
      rw [Bool.false_or, Bool.or_false, Bool.not_eq_true', ← Bool.not_eq_true]

/-- A bearer who has added nothing that would have to be signed names no
source. -/
theorem headerText_of_not_meddled (h : ¬ Meddled request) :
    request.headerText "x-amz-copy-source" = none := by
  have habsent : request.headers.containsKey "x-amz-copy-source" = false := by
    rw [← Bool.not_eq_true, HeaderMap.containsKey_iff]
    rintro ⟨entry, hentry, hname⟩
    refine h ⟨entry, hentry, ?_⟩
    rw [hname]
    decide
  rw [HttpRequest.headerText, HeaderMap.get, HeaderMap.getAll_of_absent habsent]
  rfl

/-- What a grant ought to say. -/
structure Grant.Of (credentials : Credentials) (scope : SigningScope)
    (timestamp : DateTime) (expires : Duration) (grant : Grant) : Prop where
  accessKeyId : grant.accessKeyId = credentials.accessKeyId
  sessionToken : grant.sessionToken = credentials.sessionToken
  scope : grant.scope = scope
  amzDate : grant.amzDate = (formatTimestamp timestamp).1
  expires : grant.expires = decimal expires.asSecs

/-- What is to be known of a presigned URL: its target, what its query says, and
the text that it was signed over. -/
structure PresignedParts (crypto : Crypto) (grammar : UriGrammar)
    (config : S3Config) (env : PresignEnv) (expires : Duration)
    (operation : PresignedOperation) (url : Str) (credentials : Credentials)
    (target : EndpointUrl) (rest : List QueryParam) (headers : CanonicalHeaders)
    (text : Str) : Prop where
  given : env.credentials = .ok credentials
  outlived : ∀ expiry, credentials.expiresAt = some expiry →
    env.now + expires < expiry
  aimed : config.operationTarget grammar (some operation.key.text) = .ok target
  authority : (splitUri url).authority = some target.authority
  path : (splitUri url).path = target.pathAndQuery
  signed : ∃ signed, queryOf (splitUri url).pathAndQuery = some signed ∧
    Presigned crypto credentials.signing config.signingScope
      (presigningRequest target operation.method
        (fieldsQuery operation.fields) expires) env.timestamp signed rest
      headers text
  named : (∀ c ∈ credentials.accessKeyId, isScopeChar c = true) ∧
    (∀ c ∈ config.region, isScopeChar c = true) ∧
    ∀ c ∈ operation.method, isMethodChar c = true

section Parts

variable {grammar : UriGrammar} {config : S3Config} {env : PresignEnv}
  {operation : PresignedOperation} {input url text : Str}
  {owner : Credentials} {rest : List QueryParam} {headers : CanonicalHeaders}

theorem presigned_parts
    (hendpoint : Endpoint.new grammar input = .ok config.endpoint)
    (h : operation.presigned crypto grammar config env expires = .ok url) :
    ∃ credentials target rest headers text,
      PresignedParts crypto grammar config env expires operation url credentials
        target rest headers text := by
  rw [operation.presigned_eq] at h
  obtain ⟨target, credentials, signed, htarget, hcredentials, hexpiry, hsigned,
    rfl⟩ := presign_ok h
  obtain ⟨rest, headers, text, hpresigned⟩ := signPresigned_presigned hsigned
  obtain ⟨hurl, hplain⟩ :=
    Endpoint.objectUrl_target (Endpoint.new_valid hendpoint) htarget
  obtain ⟨hauthority, hpath, hquery⟩ :=
    splitUri_presigned hurl hplain (plain_of_signPresigned hsigned)
  obtain ⟨⟨⟩, hchecks, -⟩ := Lib.bind_ok hsigned
  obtain ⟨hkey, hregion, -, hmethod⟩ :=
    validateCommon_ok (presignChecks_ok hchecks).1
  exact ⟨credentials, target, rest, headers, text, hcredentials, hexpiry,
    htarget, hauthority, hpath,
    ⟨signed, hquery, hpresigned⟩, hkey, hregion, hmethod⟩

namespace PresignedParts

variable (h :
  PresignedParts crypto grammar config env expires operation url owner target
    rest headers text)

include h

theorem says_rest {query : List QueryParam}
    (hperm :
    (query.filter fun parameter => parameter.name != signatureName).Perm rest) :
    Says query
      (operation.fields ++ signingFields owner.signing
        (owner.accessKeyId ++ '/' ::
      credentialScope (formatTimestamp env.timestamp).2 config.signingScope)
    (formatTimestamp env.timestamp).1
      expires.asSecs "host") := by
  obtain ⟨signed, -, hpresigned⟩ := h.signed
  have hnames : headers.signed = "host".toList :=
    signed_of_host hpresigned.canonical
  refine says_of_perm operation.fields_distinct.1 operation.fields_distinct.2
    (hperm.trans ?_)
  rw [fieldsQuery_append, fieldsQuery_signing, ← hnames]
  exact hpresigned.parameters

/-- The grant of a query that says the same, whatever its signature. -/
theorem readGrant_rest {query : List QueryParam}
    (hperm :
    (query.filter fun parameter => parameter.name != signatureName).Perm rest) :
    readGrant query = (param signatureName query).map fun signature =>
      ⟨owner.accessKeyId,
      (formatTimestamp env.timestamp).2, config.signingScope,
        (formatTimestamp env.timestamp).1,
      decimal expires.asSecs, owner.sessionToken, ["host".toList],
        signature⟩ := by
  have hservice : '/' ∉ "s3".toList := by decide
  exact readGrant_eq (h.says_rest hperm) (isScopeChar_ne h.named.1 (by decide))
    (not_mem_date env.timestamp (by decide) (by decide))
      (isScopeChar_ne h.named.2.1 (by decide)) hservice

theorem wire (huri : request.uri = url) :
    wireQuery ((queryOf (splitUri request.uri).pathAndQuery).getD []) =
    some (rest ++
      [signatureParam crypto owner.signing config.signingScope env.timestamp
        text]) := by
  obtain ⟨signed, hquery, hpresigned⟩ := h.signed
  rw [huri, hquery]
  exact hpresigned.read

/-- The signature is the last parameter and the only one of its name. -/
theorem param_signature :
    param signatureName
      (rest ++ [signatureParam crypto owner.signing config.signingScope
    env.timestamp text]) =
      some (signatureParam crypto owner.signing config.signingScope
        env.timestamp text).value := by
  obtain ⟨signed, -, hpresigned⟩ := h.signed
  have hunsigned : namedParams signatureName rest = [] := by
    rw [namedParams, List.filter_eq_nil_iff]
    intro parameter hmem
    rw [← hpresigned.removed] at hmem
    rw [decide_eq_true_iff]
    exact bne_iff_ne.mp (List.mem_filter.mp hmem).2
  rw [param, namedParams_append, hunsigned]
  rfl

/-- Whether the bearer of the URL has added anything is all that a service finds
out. -/
theorem grants_eq {host : Str} {verifier : Verifier}
    (hhost : target.authority = config.serviceAuthority host)
    (hborne : Borne operation.method url (config.serviceAuthority host) request)
    (hknows : verifier.Knows crypto owner) :
    verifier.grants request = if (request.headers.iter.all fun entry =>
      !mustBeSigned entry.1.text ||
        (["host".toList] : List Str).contains entry.1.text) = true then
        some ⟨owner.accessKeyId, (formatTimestamp env.timestamp).2,
          config.signingScope,
          (formatTimestamp env.timestamp).1, decimal expires.asSecs,
            owner.sessionToken, ["host".toList],
          (signatureParam crypto owner.signing config.signingScope env.timestamp
            text).value⟩
      else none := by
  obtain ⟨signed, -, hpresigned⟩ := h.signed
  have hgrant := h.readGrant_rest (by rw [hpresigned.removed])
  rw [h.param_signature, Option.map_some] at hgrant
  have htext : ∀ grant : Grant, grant.signedNames = ["host".toList] →
      request.grantText
      (rest ++
          [signatureParam crypto owner.signing config.signingScope env.timestamp
              text]) grant = some text :=
    fun grant hnames =>
      grantText_borne hpresigned hhost hborne.method
        (hborne.uri ▸ h.path) hborne.host hnames
  have hday := beforeFirst_amzDate env.timestamp
  rw [Verifier.grants, h.wire hborne.uri]
  dsimp only [Option.bind_eq_bind, Option.bind_some]
  rw [hgrant]
  dsimp only [Option.bind_some]
  refine ite_congr (propext ?_) (fun _ => rfl) (fun _ => rfl)
  refine ⟨fun h => h.1,
    fun h =>
      ⟨h, List.contains_iff_mem.mpr (List.mem_singleton_self _), hday, ?_⟩⟩
  obtain ⟨rfl, hsecret⟩ := hknows
  rw [Verifier.signatureOf, hsecret, Option.bind_eq_bind, Option.bind_some,
    htext _ rfl]
  rfl

end PresignedParts

end Parts

end Granted

/-- **A presigned URL grants its one action**, to every bearer who adds nothing
that would have to be signed, and nothing to the others. -/
theorem presigned_grants {crypto : Crypto} {grammar : UriGrammar}
    {config : S3Config} {env : PresignEnv} {expires : Duration}
    {input url : Str} {operation : PresignedOperation}
    (hendpoint : Endpoint.new grammar input = .ok config.endpoint)
    (h : operation.presigned crypto grammar config env expires = .ok url) :
    ∃ credentials host, env.credentials = .ok credentials ∧
      (∀ expiry, credentials.expiresAt = some expiry →
        env.now + expires < expiry) ∧
      (splitUri url).authority = some (config.serviceAuthority host) ∧
      ∀ request,
        Borne operation.method url (config.serviceAuthority host) request →
        ∀ verifier : Verifier, verifier.Knows crypto credentials →
          (Meddled request → verifier.grants request = none) ∧
          (¬ Meddled request → ∃ grant, verifier.grants request = some grant ∧
            grant.Of credentials config.signingScope env.timestamp expires ∧
            (Site.mk config.endpoint config.addressingStyle host).reads
              request =
              some (config.bucket, operation.action)) := by
  obtain ⟨credentials, target, rest, headers, text, hparts⟩ :=
    presigned_parts hendpoint h
  obtain ⟨host, hhost⟩ := S3Config.exists_serviceAuthority hparts.aimed
  refine ⟨credentials, host, hparts.given, hparts.outlived,
    hhost ▸ hparts.authority, ?_⟩
  intro request hborne verifier hknows
  rw [hparts.grants_eq hhost hborne hknows]
  constructor
  · intro hmeddled
    exact if_neg fun h => covered_iff.mp h hmeddled
  · intro hplain
    refine ⟨_, if_pos (covered_iff.mpr hplain), ⟨rfl, rfl, rfl, rfl, rfl⟩, ?_⟩
    obtain ⟨signed, hquery, hpresigned⟩ := hparts.signed
    obtain ⟨value, hvalue, hbytes⟩ := hborne.host
    have hread :
        request.headerText "host" = some (config.serviceAuthority host) := by
      rw [HttpRequest.headerText, HeaderMap.get, hvalue, List.head?_cons,
        Option.bind_some, hbytes, Lib.utf8Decode_utf8]
    have hresource :=
      @Site.readResource_url grammar config.endpoint config.bucket host
        (some operation.key.text)
      config.addressingStyle target (Endpoint.new_closed hendpoint)
      (fun h => operation.key.nonempty (Option.some.inj h)) hparts.aimed
    have hreads :=
      @Site.reads_eq
        ⟨config.endpoint, config.addressingStyle, host⟩ request _ config.bucket
      (some operation.key.text) _ hread
        (by rw [hborne.uri, hparts.path]; exact hresource)
          (hparts.wire hborne.uri)
    rw [hreads, hborne.method, headerText_of_not_meddled hplain]
    dsimp only
    rw [operation.read_action (hparts.says_rest (by rw [hpresigned.removed]))]
    rfl

/-! A URL for one part of an upload, and a bearer who sends it as it is. -/

open PrimitiveOperation
  (unkeyedClient sampleVerifier sampleVerifier_knows sampleEndpoint_new)

theorem presignedKey_ne : "a?uploads".toList ≠ [] := by decide

theorem presignedKey_bounded : Str.len "a?uploads" ≤ maxObjectKeyBytes := by
    decide

def presignedPart : PresignedOperation :=
  .uploadPart ⟨"a?uploads", presignedKey_ne, presignedKey_bounded⟩
    ⟨"opaque/upload+id", by decide, by decide, by decide⟩
    ⟨7, by decide, by decide⟩

def samplePresignEnv : PresignEnv :=
  ⟨.ok sampleCredentials, sampleNow, fun _ => ⟨2026, 1, 3, 3, 4, 5⟩⟩

def samplePresigned : Except S3Error Str :=
  presignedPart.presigned unkeyedClient.crypto unkeyedClient.grammar
    unkeyedClient.config samplePresignEnv
    (Duration.fromSecs 60)

/-- The sample is presigned, for the host of the endpoint. -/
def samplePresigns : Bool :=
  match samplePresigned with
  | .error _ => false
  | .ok url =>
      (splitUri url).authority = some "s3.us-east-1.amazonaws.com".toList

set_option maxRecDepth 100000 in
theorem samplePresigned_ok : samplePresigns = true := by decide +kernel

theorem sampleHostValue_valid :
    (Lib.utf8 "s3.us-east-1.amazonaws.com".toList).all isHeaderValueByte =
      true := by
  decide

def sampleHostValue : HeaderValue :=
  ⟨Lib.utf8 "s3.us-east-1.amazonaws.com".toList, sampleHostValue_valid⟩

def borneRequest (url : Str) : HttpRequest where
  method := "PUT"
  uri := url
  headers := HeaderMap.new.insert .host sampleHostValue
  body := TransportBody.empty unkeyedClient.crypto.sha

theorem presigned_grants_part : ∃ (url : Str) (host : Str) (grant : Grant),
    samplePresigned = .ok url ∧
    sampleVerifier.grants (borneRequest url) = some grant ∧
    grant.accessKeyId = sampleCredentials.accessKeyId ∧
      (Site.mk sampleEndpoint .path host).reads (borneRequest url) =
        some ("bucket".toList,
          .uploadPart "a?uploads" "opaque/upload+id" "7") := by
  have hpresigns := samplePresigned_ok
  rw [samplePresigns] at hpresigns
  split at hpresigns
  · cases hpresigns
  next url hurl =>
  have hown :
    (splitUri url).authority = some "s3.us-east-1.amazonaws.com".toList :=
      of_decide_eq_true hpresigns
  obtain ⟨credentials, host, hcredentials, -, hauthority, hgrants⟩ :=
    presigned_grants sampleEndpoint_new hurl
  obtain rfl : sampleCredentials = credentials := Except.ok.inj hcredentials
  have hhost := Option.some.inj (hauthority.symm.trans hown)
  have hborne :
      Borne presignedPart.method url
          (unkeyedClient.config.serviceAuthority host) (borneRequest url) := by
    refine ⟨rfl, rfl, sampleHostValue, rfl, ?_⟩
    rw [hhost]
    rfl
  have hplain : ¬ Meddled (borneRequest url) := by
    rintro ⟨entry, hentry, hforeign⟩
    obtain rfl := List.mem_singleton.mp hentry
    cases hforeign
  obtain ⟨grant, hgrant, hof, hreads⟩ :=
    (hgrants _ hborne sampleVerifier sampleVerifier_knows).2 hplain
  exact ⟨url, host, grant, hurl, hgrant, hof.accessKeyId, hreads⟩

end S3Wire
