/-
# `S3Wire.Signing.Presign` — a signature in the query

`src/signing/request/presign.rs`.  The parameters of the caller and those of the
signature are encoded and sorted into one query, which is a line of the
canonical request; the signature over that text goes behind it, out of order,
since it cannot cover itself.  `Presigned` says what can be read of the result:
every parameter once encoded, the signature last, and without it exactly the
line that was signed.
-/
import S3Wire.Client.Query
import S3Wire.Client.Signing

namespace S3Wire

/-! ## Requests -/

/-- What is presigned. -/
structure PresigningRequest where
  method : Str
  uriPath : Str
  query : List QueryParam
  headers : List Header
  expires : Duration
  payloadHash : Option Str

/-- Seven days, in seconds. -/
def maxPresignExpiry : Nat := 7 * 24 * 60 * 60

/-- `Duration::as_secs`. -/
def Duration.asSecs (d : Duration) : Nat := d / 1000000000

/-- `Duration::subsec_nanos`. -/
def Duration.subsecNanos (d : Duration) : Nat := d % 1000000000

def presignMethods : List Str := ["GET", "PUT", "HEAD", "DELETE", "POST"]

def signatureName : Str := "X-Amz-Signature"

/-- The other names that belong to the signature, in lowercase. -/
def reservedQueryNames : List Str :=
  ["x-amz-algorithm", "x-amz-credential", "x-amz-date", "x-amz-expires",
    "x-amz-security-token",
    "x-amz-signedheaders"]

/-- What the signer adds itself, a caller cannot. -/
def rejectReservedQuery (query : List QueryParam) : Except SigningError Unit :=
  if (query.any fun parameter =>
      eqIgnoreAsciiCase parameter.name signatureName) ||
      query.any fun parameter =>
        reservedQueryNames.contains (toAsciiLowercase parameter.name) then
    .error .reservedQueryParameter
  else .ok ()

/-! ## The signed query -/

/-- The parameters that the signature adds before it is calculated. -/
def signingParameters (credentials : SigningCredentials)
    (credential amzDate : Str) (expires : Nat) (signed : Str) :
    List QueryParam :=
  [⟨"X-Amz-Algorithm", algorithm⟩, ⟨"X-Amz-Credential", credential⟩,
    ⟨"X-Amz-Date", amzDate⟩,
    ⟨"X-Amz-Expires", decimal expires⟩, ⟨"X-Amz-SignedHeaders", signed⟩] ++
    (credentials.sessionToken.map fun token =>
      (⟨"X-Amz-Security-Token", token⟩ : QueryParam)).toList

/-- What `sign_presigned` checks before it looks at the headers. -/
def presignChecks (credentials : SigningCredentials) (scope : SigningScope)
    (request : PresigningRequest) :
    Except SigningError Unit := do
  validateCommon credentials scope request.method
  if !presignMethods.contains request.method then
    .error .unsupportedPresignMethod
  else if request.expires.asSecs = 0 ∨
      maxPresignExpiry < request.expires.asSecs ∨
      request.expires.subsecNanos ≠ 0 then .error .invalidExpiry
  else
    rejectReservedQuery request.query
    (request.payloadHash.map validatePayloadHash).getD (.ok ())

/-- `sign_presigned`: the query that makes a request good until it expires. -/
def signPresigned (crypto : Crypto) (credentials : SigningCredentials)
    (scope : SigningScope) (request : PresigningRequest)
    (timestamp : DateTime) : Except SigningError Str := do
  presignChecks credentials scope request
  let headers ← canonicalHeaders request.headers
  let (amzDate, date) := formatTimestamp timestamp
  let credentialScope := credentialScope date scope
  let credential := credentials.accessKeyId ++ '/' :: credentialScope
  let parameters := request.query ++
    signingParameters credentials credential amzDate request.expires.asSecs
      headers.signed
  let text ← buildCanonicalRequest request.method request.uriPath parameters
    headers
    (request.payloadHash.getD unsignedPayload)
  let signature :=
    calculateSignature crypto credentials scope date amzDate credentialScope
      text
  return canonicalQuery parameters ++ "&X-Amz-Signature=".toList ++ signature

/-- The pair of the signature over a text. -/
def signatureParam (crypto : Crypto) (credentials : SigningCredentials)
    (scope : SigningScope) (timestamp : DateTime) (text : Str) : QueryParam :=
  let (amzDate, date) := formatTimestamp timestamp
  ⟨signatureName,
    calculateSignature crypto credentials scope date amzDate
      (credentialScope date scope) text⟩

/-- What a presigned query is: `rest` is read of it, and `text` is what was
signed. -/
structure Presigned (crypto : Crypto) (credentials : SigningCredentials)
    (scope : SigningScope) (request : PresigningRequest) (timestamp : DateTime)
    (query : Str) (rest : List QueryParam) (headers : CanonicalHeaders)
    (text : Str) : Prop where
  lifetime : ∃ seconds, request.expires = Duration.fromSecs seconds ∧
    1 ≤ seconds ∧ seconds ≤ 604800
  canonical : canonicalHeaders request.headers = .ok headers
  /-- Split and decoded, the query ends in the signature of the text. -/
  read : wireQuery query =
    some (rest ++ [signatureParam crypto credentials scope timestamp text])
  /-- Before it stand the parameters of the caller, and one each of the
  signature's. -/
  parameters : rest.Perm (request.query ++ signingParameters credentials
    (credentials.accessKeyId ++ '/' :: credentialScope
      (formatTimestamp timestamp).2 scope)
    (formatTimestamp timestamp).1 request.expires.asSecs headers.signed)
  /-- No parameter of the caller has one of these names, in any letter case. -/
  unreserved : ∀ parameter ∈ request.query,
    toAsciiLowercase parameter.name ∉ toAsciiLowercase signatureName ::
      reservedQueryNames
  /-- The signature is the only pair of its name. -/
  removed :
    (rest ++ [signatureParam crypto credentials scope timestamp text]).filter
    (fun parameter => parameter.name != signatureName) = rest
  /-- Without it the query is a line of what was signed. -/
  line : ∃ uri, canonicalUriFromEncoded request.uriPath = .ok uri ∧
    text = request.method ++
      '\n' :: (uri ++ '\n' :: (canonicalQuery rest ++ '\n' ::
      (headers.canonical ++ '\n' :: (headers.signed ++ '\n' ::
        request.payloadHash.getD unsignedPayload))))

section Presign

variable {crypto : Crypto} {credentials : SigningCredentials}
  {scope : SigningScope}
  {request : PresigningRequest} {timestamp : DateTime} {query : Str}

theorem awsUriEncode_eq_self :
    ∀ {s : Str}, (∀ c ∈ s, isCharOf isUnreserved c = true) →
    awsUriEncode s true = s
  | [], _ => rfl
  | c :: s, h => by
      obtain ⟨hc, hs⟩ := List.forall_mem_cons.mp h
      have ih := awsUriEncode_eq_self hs
      simp only [isCharOf, Bool.and_eq_true, decide_eq_true_eq] at hc
      have hself : Char.ofNat (UInt8.ofNat c.toNat).toNat = c := by
        rw [UInt8.toNat_ofNat', Nat.mod_eq_of_lt (by omega), Char.ofNat_toNat]
      rw [awsUriEncode, if_pos rfl, Lib.percentEncode] at ih ⊢
      rw [Lib.utf8_cons, Lib.utf8EncodeChar_ascii hc.1, List.flatMap_append, ih]
      rw [List.flatMap_singleton, if_pos hc.2, hself]
      rfl

theorem isCharOf_hexEncode (bytes : Bytes) :
    ∀ c ∈ hexEncode bytes, isCharOf isUnreserved c = true := by
  have hdigit : ∀ n < 16, isCharOf isUnreserved (lowerHexDigit n) = true := by
    decide
  exact forall_mem_hexEncode hdigit bytes

theorem queryField_signature (bytes : Bytes) :
    queryField (encodeParam ⟨signatureName, hexEncode bytes⟩) =
      "X-Amz-Signature=".toList ++ hexEncode bytes := by
  have hname : awsUriEncode signatureName true = signatureName := by
    decide +kernel
  rw [encodeParam, hname, awsUriEncode_eq_self (isCharOf_hexEncode bytes)]
  rfl

theorem intercalate_concat {sep last : Str} :
    ∀ {fields : List Str}, fields ≠ [] →
    sep.intercalate (fields ++ [last]) = sep.intercalate fields ++ sep ++ last
  | [field], _ => by simp
  | field :: next :: fields, _ => by
      have ih := @intercalate_concat sep last (next :: fields) (by simp)
      rw [List.cons_append, List.cons_append, List.intercalate_cons_cons,
        ← List.cons_append, ih,
        List.intercalate_cons_cons]
      simp

/-- A pair behind a canonical query is read after the parameters of the
query. -/
theorem wireQuery_signature {parameters : List QueryParam}
    (hne : parameters ≠ []) (bytes : Bytes) :
    ∃ rest : List QueryParam, rest.Perm parameters ∧
    canonicalQuery rest = canonicalQuery parameters ∧
      wireQuery
        (canonicalQuery parameters ++ "&X-Amz-Signature=".toList ++
          hexEncode bytes) =
        some (rest ++ [⟨signatureName, hexEncode bytes⟩]) := by
  obtain ⟨rest, hrest⟩ := exists_sorted parameters
  have hperm : rest.Perm parameters := by
    refine (List.map_perm_map_iff encodeParam_injective).mp ?_
    rw [hrest]
    exact encodedQuery_perm parameters
  have hcanonical : canonicalQuery rest = canonicalQuery parameters := by
    rw [canonicalQuery, encodedQuery_of_perm hperm, canonicalQuery]
  have hfields : (rest.map encodeParam).map queryField ≠ [] := by
    intro hnil
    refine hne (List.Perm.eq_nil ?_)
    simp only [List.map_eq_nil_iff] at hnil
    rw [← hnil]
    exact hperm.symm
  have hread :=
    @wireQuery_fields (rest ++ [⟨signatureName, hexEncode bytes⟩]) (by simp)
  rw [List.map_append, List.map_append, List.map_singleton, List.map_singleton,
    queryField_signature,
    intercalate_concat hfields, hrest] at hread
  refine ⟨rest, hperm, hcanonical, ?_⟩
  have hamp :
    "&X-Amz-Signature=".toList = ['&'] ++ "X-Amz-Signature=".toList := by decide
  rw [← hread, hamp, canonicalQuery]
  simp only [List.append_assoc]

theorem rejectReservedQuery_ok {parameters : List QueryParam}
    (h : rejectReservedQuery parameters = .ok ()) :
    ∀ parameter ∈ parameters,
      toAsciiLowercase parameter.name ∉ toAsciiLowercase signatureName ::
        reservedQueryNames := by
  unfold rejectReservedQuery at h
  split at h
  · cases h
  · next hnone =>
      simp only [Bool.or_eq_true, List.any_eq_true, not_or, not_exists, not_and]
        at hnone
      intro parameter hmem hname
      rcases List.mem_cons.mp hname with hname | hname
      · exact hnone.1 parameter hmem (by simp [eqIgnoreAsciiCase, hname])
      · exact hnone.2 parameter hmem (by simpa using hname)

theorem signingParameters_unsigned {credential amzDate signed : Str}
    {expires : Nat} :
    ∀ parameter ∈ signingParameters credentials credential amzDate expires signed,
      (parameter.name != signatureName) = true := by
  intro parameter hmem
  unfold signingParameters at hmem
  cases htoken : credentials.sessionToken with
  | none =>
      simp only [htoken, Option.map_none, Option.toList_none, List.append_nil,
        List.mem_cons,
        List.not_mem_nil, or_false] at hmem
      rcases hmem with rfl | rfl | rfl | rfl | rfl <;> rfl
  | some token =>
      simp only [htoken, Option.map_some, Option.toList_some, List.cons_append,
        List.nil_append,
        List.mem_cons, List.not_mem_nil, or_false] at hmem
      rcases hmem with rfl | rfl | rfl | rfl | rfl | rfl <;> rfl

theorem Duration.eq_fromSecs {d : Duration} (h : d.subsecNanos = 0) :
    d = Duration.fromSecs d.asSecs :=
  (Nat.div_mul_cancel (Nat.dvd_of_mod_eq_zero h)).symm

theorem presignChecks_ok
    (h : presignChecks credentials scope request = .ok ()) :
    validateCommon credentials scope request.method = .ok () ∧
      (∃ seconds, request.expires = Duration.fromSecs seconds ∧ 1 ≤ seconds ∧
        seconds ≤ 604800) ∧
      rejectReservedQuery request.query = .ok () := by
  unfold presignChecks at h
  obtain ⟨⟨⟩, hcommon, h⟩ := Lib.bind_ok h
  split at h
  · cases h
  split at h
  · cases h
  next hexpires =>
  simp only [not_or, not_lt, ne_eq, Decidable.not_not] at hexpires
  obtain ⟨hpositive, hmaximum, hnanos⟩ := hexpires
  obtain ⟨⟨⟩, hreserved, -⟩ := Lib.bind_ok h
  exact ⟨hcommon,
    ⟨_, Duration.eq_fromSecs hnanos, Nat.one_le_iff_ne_zero.mpr hpositive,
      hmaximum⟩, hreserved⟩

/-- Presigning succeeds when the checks pass, the headers are accepted and the
path is one that can be signed. -/
theorem signPresigned_isOk :
    (∃ query, signPresigned crypto credentials scope request timestamp =
      .ok query) ↔
    presignChecks credentials scope request = .ok () ∧
      (∃ headers, canonicalHeaders request.headers = .ok headers) ∧
      ∃ uri, canonicalUriFromEncoded request.uriPath = .ok uri := by
  constructor
  · rintro ⟨query, h⟩
    unfold signPresigned at h
    obtain ⟨⟨⟩, hchecks, h⟩ := Lib.bind_ok h
    obtain ⟨headers, hheaders, h⟩ := Lib.bind_ok h
    obtain ⟨text, htext, -⟩ := Lib.bind_ok h
    refine ⟨hchecks, ⟨headers, hheaders⟩, ?_⟩
    unfold buildCanonicalRequest at htext
    cases huri : canonicalUriFromEncoded request.uriPath with
    | error e => simp [huri, Except.map] at htext
    | ok uri => exact ⟨uri, rfl⟩
  · rintro ⟨hchecks, ⟨headers, hheaders⟩, uri, huri⟩
    unfold signPresigned
    simp only [hchecks, hheaders, buildCanonicalRequest, huri, bind,
      Except.bind, Except.map]
    exact ⟨_, rfl⟩

/-- **A presigned query carries what was signed.** -/
theorem signPresigned_presigned
    (h : signPresigned crypto credentials scope request timestamp = .ok query) :
    ∃ rest headers text,
      Presigned crypto credentials scope request timestamp query rest headers
        text := by
  unfold signPresigned at h
  obtain ⟨⟨⟩, hchecks, h⟩ := Lib.bind_ok h
  obtain ⟨headers, hheaders, h⟩ := Lib.bind_ok h
  obtain ⟨text, htext, h⟩ := Lib.bind_ok h
  obtain ⟨-, hlifetime, hreserved⟩ := presignChecks_ok hchecks
  have hunreserved := rejectReservedQuery_ok hreserved
  -- the signature's own parameters are always there, so that the query is not
  -- empty
  have hne : request.query ++ signingParameters credentials
      (credentials.accessKeyId ++ '/' :: credentialScope
        (formatTimestamp timestamp).2 scope)
      (formatTimestamp timestamp).1 request.expires.asSecs headers.signed ≠
          [] := by
    simp [signingParameters]
  obtain ⟨rest, hperm, hcanonical, hread⟩ := wireQuery_signature hne
    (crypto.hmac
      (deriveSigningKey crypto credentials.secretAccessKey
        (formatTimestamp timestamp).2
      scope.region scope.service)
        (Lib.utf8
          (algorithm ++ '\n' :: ((formatTimestamp timestamp).1 ++ '\n' ::
        (credentialScope (formatTimestamp timestamp).2 scope ++ '\n' ::
          payloadSha256Hex crypto (Lib.utf8 text))))))
  refine ⟨rest, headers, text, ?_⟩
  cases h
  refine ⟨hlifetime, hheaders, hread, hperm, hunreserved, ?_, ?_⟩
  · have hother : ∀ parameter ∈ rest, (parameter.name != signatureName) =
        true := by
      intro parameter hmem
      rcases List.mem_append.mp (hperm.subset hmem) with hmem | hmem
      · rw [bne_iff_ne]
        intro hname
        exact hunreserved parameter hmem (by simp [hname])
      · exact signingParameters_unsigned parameter hmem
    rw [List.filter_append, List.filter_eq_self.mpr hother]
    simp [signatureParam]
  · unfold buildCanonicalRequest at htext
    cases huri : canonicalUriFromEncoded request.uriPath with
    | error e => simp [huri, Except.map] at htext
    | ok uri =>
        simp only [huri, Except.map, Except.ok.injEq] at htext
        refine ⟨uri, rfl, ?_⟩
        rw [hcanonical]
        exact htext.symm

end Presign

end S3Wire
