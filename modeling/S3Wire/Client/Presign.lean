/-
# `S3Wire.Client.Presign` — presigned URLs

`src/client/presign.rs`.  A URL is presigned with the host alone among its
headers and no payload hash, so that whoever holds it can send it; it stops
working before the credentials do.
-/
import S3Wire.Client.Operation.Prepare
import S3Wire.Config
import S3Wire.Endpoint.Identity
import S3Wire.Signing.Presign

namespace S3Wire

/-- What the world answers while a URL is presigned: the credentials, and one
reading of the clock; and the calendar of the `time` crate, which gives the date
of a time. -/
structure PresignEnv where
  credentials : Except S3Error Credentials
  now : Int
  calendar : Int → DateTime

/-- The reading of the clock as a date. -/
def PresignEnv.timestamp (env : PresignEnv) : DateTime := env.calendar env.now

/-- The last representable time: the end of the year 9999. -/
def maxTime : Int := 253402300799999999999

/-- `time::Duration::try_from(expires)`, added to the time; `none` when either
does not fit. -/
def checkedExpiry (now : Int) (expires : Duration) : Option Int :=
  if expires.asSecs < 2 ^ 63 ∧ now + expires ≤ maxTime then some (now + expires)
  else none

/-- The request that is signed for a target. -/
def presigningRequest (target : EndpointUrl) (method : Str)
    (query : List QueryParam) (expires : Duration) :
    PresigningRequest where
  method := method
  uriPath := target.pathAndQuery
  query := query
  headers := [⟨"host", target.authority⟩]
  expires := expires
  payloadHash := none

/-- The scope of a client. -/
def S3Config.signingScope (config : S3Config) : SigningScope :=
  ⟨config.region, "s3"⟩

section

variable (crypto : Crypto) (grammar : UriGrammar) (config : S3Config)
  (env : PresignEnv)

/-- `S3Client::presign`. -/
def presign (method : Str) (key : ObjectKey) (query : List QueryParam)
    (expires : Duration) :
    Except S3Error Str := do
  let target ← config.operationTarget grammar (some key.text)
  let credentials ← env.credentials
  if credentials.expiresBy env.now then
    .error (S3Error.new .authentication
      "credential provider returned expired credentials" .never)
  else if credentials.expiresAt.any fun credentialExpiry =>
      (checkedExpiry env.now expires).all fun urlExpiry =>
        credentialExpiry ≤ urlExpiry then
    .error (S3Error.new .authentication
      "presigned URL lifetime must end before the credentials expire" .never)
  else
    match signPresigned crypto credentials.signing config.signingScope
        (presigningRequest target method query expires) env.timestamp with
    | .error _ =>
        .error (S3Error.new .authentication "presigned URL generation failed"
          .never)
    | .ok signed => .ok (target.serialized ++ '?' :: signed)

/-- `presigned_get`. -/
def presignedGet (key : ObjectKey) (expires : Duration) : Except S3Error Str :=
  presign crypto grammar config env "GET" key [] expires

/-- `presigned_put`. -/
def presignedPut (key : ObjectKey) (expires : Duration) : Except S3Error Str :=
  presign crypto grammar config env "PUT" key [] expires

def presignedHead (key : ObjectKey) (expires : Duration) : Except S3Error Str :=
  presign crypto grammar config env "HEAD" key [] expires

def presignedDelete (key : ObjectKey) (expires : Duration) :
    Except S3Error Str :=
  presign crypto grammar config env "DELETE" key [] expires

def presignedCreateMultipartUpload (key : ObjectKey) (expires : Duration) :
    Except S3Error Str :=
  presign crypto grammar config env "POST" key createQuery expires

/-- `presigned_upload_part`; the number and the upload travel in the query. -/
def presignedUploadPart (key : ObjectKey) (uploadId : UploadId)
    (partNumber : PartNumber) (expires : Duration) :
    Except S3Error Str :=
  presign crypto grammar config env "PUT" key
    (uploadPartQuery partNumber uploadId) expires

/-- `presigned_abort_multipart_upload`. -/
def presignedAbortMultipartUpload (key : ObjectKey) (uploadId : UploadId)
    (expires : Duration) :
    Except S3Error Str :=
  presign crypto grammar config env "DELETE" key (uploadQuery uploadId) expires

end

section Presign

variable {crypto : Crypto} {grammar : UriGrammar} {config : S3Config}
  {env : PresignEnv} {method : Str}
  {key : ObjectKey} {query : List QueryParam} {expires : Duration} {url : Str}

theorem presign_ok
    (h : presign crypto grammar config env method key query expires = .ok url) :
    ∃ target credentials signed,
      config.operationTarget grammar (some key.text) = .ok target ∧
      env.credentials = .ok credentials ∧
      (∀ expiry, credentials.expiresAt = some expiry →
        env.now + expires < expiry) ∧
      signPresigned crypto credentials.signing config.signingScope
        (presigningRequest target method query expires) env.timestamp =
          .ok signed ∧
      url = target.serialized ++ '?' :: signed := by
  unfold presign at h
  obtain ⟨target, htarget, h⟩ := Lib.bind_ok h
  obtain ⟨credentials, hcredentials, h⟩ := Lib.bind_ok h
  split at h
  · cases h
  split at h
  · cases h
  next houtlives =>
  split at h
  · cases h
  next signed hsigned =>
  cases h
  refine ⟨target, credentials, signed, htarget, hcredentials, ?_, hsigned, rfl⟩
  intro expiry hexpiry
  rw [hexpiry, Option.any_some, Bool.not_eq_true, checkedExpiry] at houtlives
  split at houtlives
  · simpa using houtlives
  · cases houtlives

theorem presign_of_checks {target : EndpointUrl} {credentials : Credentials}
    {signed : Str}
    (htarget : config.operationTarget grammar (some key.text) = .ok target)
    (hcredentials : env.credentials = .ok credentials)
    (hfresh : credentials.expiresBy env.now = false)
    (hends : (credentials.expiresAt.any fun credentialExpiry =>
      (checkedExpiry env.now expires).all fun urlExpiry =>
        credentialExpiry ≤ urlExpiry) = false)
    (hsigned : signPresigned crypto credentials.signing config.signingScope
      (presigningRequest target method query expires) env.timestamp =
        .ok signed) :
    presign crypto grammar config env method key query expires =
      .ok (target.serialized ++ '?' :: signed) := by
  unfold presign
  simp only [htarget, hcredentials, bind, Except.bind, hfresh, hends,
    Bool.false_eq_true, if_false,
    hsigned]

/-- **What is presigned is what is in the URL**, and the URL ends before the
credentials it was signed with. -/
theorem presign_spec :
    (∀ (crypto : Crypto) (credentials : SigningCredentials) (scope : SigningScope)
      (request : PresigningRequest) (timestamp : DateTime) (query : Str),
      signPresigned crypto credentials scope request timestamp = .ok query →
      ∃ rest headers text,
        Presigned crypto credentials scope request timestamp query rest headers
          text) ∧
    ∀ (crypto : Crypto) (grammar : UriGrammar) (config : S3Config)
      (env : PresignEnv) (method : Str)
      (key : ObjectKey) (query : List QueryParam) (expires : Duration)
      (url : Str),
      presign crypto grammar config env method key query expires = .ok url →
      ∃ target credentials signed,
        config.operationTarget grammar (some key.text) = .ok target ∧
        env.credentials = .ok credentials ∧
        (∀ expiry, credentials.expiresAt = some expiry →
          env.now + expires < expiry) ∧
        signPresigned crypto credentials.signing config.signingScope
          (presigningRequest target method query expires) env.timestamp =
            .ok signed ∧
        url = target.serialized ++ '?' :: signed :=
  ⟨fun _ _ _ _ _ _ h => signPresigned_presigned h, fun _ _ _ _ _ _ _ _ _ h =>
    presign_ok h⟩

/-- A key that needs encoding, a version with a slash and a plus sign, and a
token. -/
def samplePresigning : PresigningRequest where
  method := "PUT"
  uriPath := "/bucket/a%20b"
  query := [⟨"versionId", "a/b+"⟩]
  headers := [⟨"host", "storage.example.test"⟩]
  expires := Duration.fromSecs 60
  payloadHash := none

/-- An endpoint at a base path. -/
def sampleSite (basePath : Str) : Endpoint :=
  ⟨⟨"https://s3.test".toList ++ basePath, "https", "s3.test", basePath⟩,
    basePath⟩

/-- A configuration for it, with the defaults of the builder. -/
def sampleSettings (basePath : Str) : S3Config where
  endpoint := sampleSite basePath
  region := "us-east-1"
  bucket := "data"
  addressingStyle := .path
  attemptTimeout := Duration.fromSecs 30
  operationTimeout := Duration.fromSecs 300
  idleBodyTimeout := Duration.fromSecs 30
  maxXmlResponseSize := 1024 * 1024
  maxErrorResponseSize := 64 * 1024
  retryPolicy := RetryPolicy.standard

theorem sampleKey_bounded : Str.len "k" ≤ maxObjectKeyBytes := by decide

def sampleKey : ObjectKey := ⟨"k", List.cons_ne_nil _ _, sampleKey_bounded⟩

/-- The third of January 2026, at four minutes and five seconds past three. -/
def sampleNow : Int := 1767409445000000000

theorem sampleKeyId_ne : "AKID".toList ≠ [] := by decide

theorem sampleSecret_ne : "secret".toList ≠ [] := by decide

theorem sampleToken_ne : some "token/with+chars=".toList ≠ some [] := by decide

/-- Credentials with a token that expire two minutes after they are given. -/
def expiringCredentials : Credentials where
  accessKeyId := "AKID".toList
  secretAccessKey := "secret".toList
  sessionToken := some "token/with+chars=".toList
  expiresAt := some (sampleNow + Duration.fromSecs 120)
  accessKeyId_nonempty := sampleKeyId_ne
  secretAccessKey_nonempty := sampleSecret_ne
  sessionToken_nonempty := sampleToken_ne

def expiringEnv : PresignEnv :=
  ⟨.ok expiringCredentials, sampleNow, fun _ => ⟨2026, 1, 3, 3, 4, 5⟩⟩

/-- The sample is signed, and its parameters are read back; and a URL of a
minute is presigned with credentials that are good for two. -/
theorem presign_spec_token :
    (∃ query rest headers text,
      signPresigned standardCrypto
        ⟨"AKID", Lib.utf8 "secret".toList, some "token/with+chars="⟩
        ⟨"local-1", "s3"⟩ samplePresigning ⟨2026, 1, 2, 3, 4, 5⟩ = .ok query ∧
      Presigned standardCrypto
        ⟨"AKID", Lib.utf8 "secret".toList, some "token/with+chars="⟩
        ⟨"local-1", "s3"⟩ samplePresigning
          ⟨2026, 1, 2, 3, 4, 5⟩ query rest headers text) ∧
    ∃ url target signed,
      presign standardCrypto permissive
        (sampleSettings ['/']) expiringEnv "PUT" sampleKey
        [⟨"partNumber", "1"⟩] (Duration.fromSecs 60) = .ok url ∧
      sampleNow + Duration.fromSecs 60 < sampleNow + Duration.fromSecs 120 ∧
      url = EndpointUrl.serialized target ++ '?' :: signed := by
  have hsigns : ∃ query, signPresigned standardCrypto
      ⟨"AKID", Lib.utf8 "secret".toList, some "token/with+chars="⟩
        ⟨"local-1", "s3"⟩ samplePresigning
      ⟨2026, 1, 2, 3, 4, 5⟩ = .ok query :=
    signPresigned_isOk.mpr
      ⟨rfl, ⟨_, rfl⟩, ⟨"/bucket/a%20b".toList, by decide +kernel⟩⟩
  obtain ⟨query, hquery⟩ := hsigns
  obtain ⟨rest, headers, text, hpresigned⟩ := presign_spec.1 _ _ _ _ _ _ hquery
  have hsigns :
      ∃ signed, signPresigned standardCrypto expiringCredentials.signing
      (sampleSettings ['/']).signingScope
        (presigningRequest (queriedUrl "/data/k") "PUT"
        [⟨"partNumber", "1"⟩] (Duration.fromSecs 60)) expiringEnv.timestamp =
            .ok signed :=
    signPresigned_isOk.mpr
      ⟨rfl, ⟨_, rfl⟩, ⟨"/data/k".toList, by decide +kernel⟩⟩
  obtain ⟨signed, hsigned⟩ := hsigns
  have hurl :=
    @presign_of_checks standardCrypto permissive
      (sampleSettings ['/']) expiringEnv "PUT"
    sampleKey _ _ _ expiringCredentials signed rfl rfl (by decide +kernel)
      (by decide +kernel) hsigned
  obtain ⟨target, credentials, signed', -, hcredentials, hexpiry, -,
      hserialized⟩ :=
    presign_spec.2 _ _ _ _ _ _ _ _ _ hurl
  obtain rfl : expiringCredentials = credentials := Except.ok.inj hcredentials
  exact ⟨⟨query, rest, headers, text, hquery, hpresigned⟩, _, target, signed',
    hurl, hexpiry _ rfl,
    hserialized⟩

end Presign

end S3Wire
