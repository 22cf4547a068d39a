/-
# `S3Wire.Client.Construction` — what the constructors promise the signature

Every component of a presigned URL is checked twice: when the credentials, the
endpoint and the configuration are built, and again by `sign_presigned`
(`src/signing/request/common.rs`).  The second check is no formality.  A region
that was accepted is accepted again, and so are host, method, token and
lifetime; but credentials are built of any access key identifier that is not
empty, and an endpoint of any path, while the signature wants letters, digits,
`-` and `_` of the one and whole percent triplets of the other.
`presignedGet_isOk` says that these two are all there is.
-/
import S3Wire.Client.Presign
import S3Wire.Endpoint.Identity
import S3Wire.Signing.Headers
import S3Wire.Signing.Path

namespace S3Wire

/-- The characters an authority may have, as far as it matters here. -/
def isVisibleChar (c : Char) : Bool := 32 < c.toNat && c.toNat != 127

/-- The authority of a URI has no control characters and no blanks, after RFC
3986. -/
def UriGrammar.Visible (grammar : UriGrammar) : Prop :=
  ∀ s authority, grammar.uri s = true →
    (splitUri s).authority = some authority →
    ∀ c ∈ authority, isVisibleChar c = true

/-- A lifetime that ends before the credentials do, which they do at a time
there is. -/
def Credentials.Outlast (credentials : Credentials) (now : Int)
    (lifetime : Duration) : Prop :=
  ∀ expiry, credentials.expiresAt = some expiry → now + lifetime < expiry ∧
    expiry ≤ maxTime

section Construction

variable {grammar : UriGrammar} {e : Endpoint} {bucket : Str}
  {objectKey : Option Str}
  {style : AddressingStyle} {url : EndpointUrl}

/-! ## Escapes -/

theorem CanonicalForm.escapesValid {path : Str} (h : CanonicalForm path) :
    EscapesValid path :=
  canonicalPath_isOk.mp ⟨path, canonicalPath_eq_self_iff.mpr h⟩

theorem escapesValid_append_slash {path rest : Str} :
    EscapesValid (path ++ '/' :: rest) ↔ EscapesValid path ∧
    EscapesValid rest := by
  have hslash : Lib.hexValue '/' = none := rfl
  constructor
  · intro h
    refine ⟨?_, ?_⟩
    · rintro before after rfl
      obtain ⟨high, low, tail, heq, hhigh, hlow⟩ :=
        h before (after ++ '/' :: rest) (by simp)
      rcases after with _ | ⟨first, _ | ⟨second, after⟩⟩
      · obtain ⟨rfl, -⟩ := List.cons.inj heq
        rw [hslash] at hhigh
        cases hhigh
      · obtain ⟨-, heq⟩ := List.cons.inj heq
        obtain ⟨rfl, -⟩ := List.cons.inj heq
        rw [hslash] at hlow
        cases hlow
      · simp only [List.cons_append, List.cons.injEq] at heq
        obtain ⟨rfl, rfl, -⟩ := heq
        exact ⟨first, second, after, rfl, hhigh, hlow⟩
    · rintro before after rfl
      exact h (path ++ '/' :: before) after (by simp)
  · rintro ⟨hpath, hrest⟩ before after heq
    rcases List.append_eq_append_iff.mp heq with ⟨front, rfl, hfront⟩ |
      ⟨back, rfl, hback⟩
    · -- the escape is behind the path
      cases front with
      | nil => cases (List.cons.inj hfront).1
      | cons c front => exact hrest front after (List.cons.inj hfront).2
    · cases back with
      | nil => cases (List.cons.inj hback).1
      | cons c back =>
          obtain ⟨rfl, rfl⟩ := List.cons.inj hback
          obtain ⟨high, low, tail, rfl, hhigh, hlow⟩ := hpath before back rfl
          exact ⟨high, low, tail ++ '/' :: rest, rfl, hhigh, hlow⟩

theorem escapesValid_objectPath {input : Str}
    (he : Endpoint.new grammar input = .ok e) (hbucket : bucket ≠ [])
    {key : Str} :
    EscapesValid (e.objectPath bucket (some key) style) ↔
    EscapesValid e.basePath := by
  have hbase := Endpoint.new_closed he
  rw [Endpoint.objectPath_eq hbase hbucket]
  have hkept : e.keptBase (some key) style = e.basePath := by
    simp [Endpoint.keptBase]
  have hsuffix : EscapesValid (objectSuffix bucket (some key) style) := by
    refine CanonicalForm.escapesValid ?_
    cases style with
    | path =>
        have hslash : isCharOf isUnreservedOrSlash '/' = true := by decide
        exact CanonicalForm.encode_append isUnreservedOrSlash_of_unreserved
          (.char hslash (canonicalForm_encodeObjectKey key)) (Lib.utf8 bucket)
    | virtualHosted => exact canonicalForm_encodeObjectKey key
  obtain ⟨front, hfront⟩ := List.getLast?_eq_some_iff.mp hbase
  rw [hkept, hfront, List.append_assoc, List.singleton_append,
    escapesValid_append_slash,
    escapesValid_append_slash]
  exact ⟨fun h => ⟨h.1, escapesValid_nil⟩, fun h => ⟨h.1, hsuffix⟩⟩

/-! ## The host -/

theorem namesHost_of_target {input : Str} (hvisible : grammar.Visible)
    (he : Endpoint.new grammar input = .ok e)
    (h : e.objectUrl grammar bucket objectKey style = .ok url) :
    ∃ canonical, canonicalHeaders [⟨"host", url.authority⟩] =
      .ok canonical := by
  have htarget := (Endpoint.objectUrl_target (Endpoint.new_valid he) h).1
  obtain ⟨_, -, hparts⟩ := Endpoint.objectUrl_eq h
  have hchars : ∀ c ∈ url.authority, isVisibleChar c = true :=
    hvisible url.serialized url.authority (EndpointUrl.fromParts_eq hparts).2
      (by rw [splitUri_serialized htarget])
  have hne : url.authority ≠ [] := by
    rw [Endpoint.objectUrl_authority h]
    cases style with
    | path => exact Endpoint.new_authority he
    | virtualHosted => simp [Endpoint.writtenAuthority]
  refine canonicalHeaders_isOk.mpr ⟨?_, ?_⟩
  · intro header hheader
    obtain rfl := List.mem_singleton.mp hheader
    have hname : validHeaderName "host" = true := by decide
    refine acceptable_iff.mpr ⟨hname, List.any_eq_false.mpr fun c hc => ?_⟩
    rw [Bool.not_eq_true]
    have hvisible := hchars c hc
    simp only [isVisibleChar, Bool.and_eq_true, decide_eq_true_eq, bne_iff_ne]
      at hvisible
    simp only [isForbiddenControl, Bool.and_eq_false_iff, Bool.or_eq_false_iff,
      decide_eq_false_iff_not,
      beq_eq_false_iff_ne]
    exact Or.inl ⟨by omega, hvisible.2⟩
  · obtain ⟨c, rest, hauthority⟩ := List.exists_cons_of_ne_nil hne
    refine ⟨⟨"host", url.authority⟩, rfl, c, by simp [hauthority], ?_⟩
    have hvisible := hchars c (by simp [hauthority])
    rw [Bool.eq_false_iff]
    intro hblank
    simp only [isBlank, Bool.or_eq_true, beq_iff_eq] at hblank
    rcases hblank with rfl | rfl
    · exact absurd hvisible (by decide)
    · exact absurd hvisible (by decide)

/-! ## What is left of the checks -/

theorem isScopeChar_eq : isScopeChar = isTokenChar := rfl

/-- Nothing of a built configuration and of its credentials fails the common
checks, but for the access key identifier. -/
theorem validateCommon_eq {credentials : Credentials} {config : S3Config}
    (hregion : config.region ≠ [] ∧ ∀ c ∈ config.region, isTokenChar c = true) :
    validateCommon credentials.signing config.signingScope "GET" =
      if credentials.accessKeyId.all isScopeChar then .ok ()
        else .error .invalidCredentials := by
  have hsecret : (Lib.utf8 credentials.secretAccessKey).isEmpty = false := by
    rw [List.isEmpty_eq_false_iff]
    intro hnil
    exact credentials.secretAccessKey_nonempty (@Lib.utf8_injective _ [] hnil)
  have htoken : credentials.sessionToken.any List.isEmpty = false := by
    cases hsession : credentials.sessionToken with
    | none => rfl
    | some token =>
        have hne : token ≠ [] :=
          fun hnil => credentials.sessionToken_nonempty (by rw [hsession, hnil])
        simpa using hne
  have hscope : validScopeComponent config.region = true := by
    rw [validScopeComponent, Bool.and_eq_true, List.all_eq_true, isScopeChar_eq]
    exact ⟨by simpa using hregion.1, hregion.2⟩
  have hkey : credentials.accessKeyId.isEmpty = false := by
    simpa using credentials.accessKeyId_nonempty
  have hservice : validScopeComponent "s3" = true := by decide
  have hmethod : ("GET".toList.isEmpty || !"GET".toList.all isMethodChar) =
    false := by decide
  unfold validateCommon
  simp only [Credentials.signing, S3Config.signingScope, hsecret, hkey, htoken,
    hscope, hservice, hmethod,
    Bool.false_or, Bool.not_true, Bool.or_false, Bool.false_eq_true, if_false]
  cases credentials.accessKeyId.all isScopeChar
  · rfl
  · rfl

theorem Duration.fromSecs_parts (seconds : Nat) :
    (Duration.fromSecs seconds).asSecs = seconds ∧
    (Duration.fromSecs seconds).subsecNanos = 0 :=
  ⟨Nat.mul_div_cancel _ (by decide), Nat.mul_mod_left _ _⟩

/-- Of all checks before the headers only the one on the access key identifier
is left. -/
theorem presignChecks_isOk {credentials : Credentials} {config : S3Config}
    {target : EndpointUrl} {seconds : Nat}
    (hregion : config.region ≠ [] ∧ ∀ c ∈ config.region, isTokenChar c = true)
    (hseconds : 1 ≤ seconds ∧ seconds ≤ 604800) :
    presignChecks credentials.signing config.signingScope
        (presigningRequest target "GET" [] (Duration.fromSecs seconds)) =
          .ok () ↔
      ∀ c ∈ credentials.accessKeyId, isScopeChar c = true := by
  obtain ⟨hsecs, hnanos⟩ := Duration.fromSecs_parts seconds
  have hmethods : presignMethods.contains "GET".toList = true := by decide
  have hrange :
      ¬(seconds = 0 ∨ maxPresignExpiry < seconds ∨ (0 : Nat) ≠ 0) := by
    unfold maxPresignExpiry
    omega
  have hquery : rejectReservedQuery [] = .ok () := rfl
  rw [← List.all_eq_true]
  unfold presignChecks
  simp only [presigningRequest, validateCommon_eq hregion, hmethods, hsecs,
    hnanos, if_neg hrange, hquery]
  cases credentials.accessKeyId.all isScopeChar
  · simp [bind, Except.bind]
  · simp [bind, Except.bind]

/-- **The two checks that construction leaves to the signature.**  For
credentials that were built, an endpoint inside a configuration that was built,
and a lifetime of whole seconds that ends before the credentials, a URL for
reading a key is presigned when the access key identifier is made of letters,
digits, `-` and `_`, and the escapes of the base path are whole; otherwise it is
`sign_presigned` that fails. -/
theorem presignedGet_isOk {crypto : Crypto} {input : Str}
    {builder : S3ConfigBuilder} {representable : Duration → Bool}
    {config : S3Config} {credentials : Credentials} {env : PresignEnv}
    {key : ObjectKey} {seconds : Nat} {target : EndpointUrl}
    (hgrammar : grammar.Visible)
    (hendpoint : Endpoint.new grammar input = .ok builder.endpoint)
    (hconfig : builder.build grammar representable = .ok config)
    (hcredentials : env.credentials = .ok credentials)
    (hseconds : 1 ≤ seconds ∧ seconds ≤ 604800)
    (houtlast : credentials.Outlast env.now (Duration.fromSecs seconds))
    (htarget : config.operationTarget grammar (some key.text) = .ok target) :
    ((∃ url,
      presignedGet crypto grammar config env key (Duration.fromSecs seconds) =
        .ok url) ↔
      (∀ c ∈ credentials.accessKeyId, isScopeChar c = true) ∧
      EscapesValid builder.endpoint.basePath) ∧
    (¬(∃ url,
      presignedGet crypto grammar config env key (Duration.fromSecs seconds) =
        .ok url) →
      presignedGet crypto grammar config env key (Duration.fromSecs seconds) =
        .error (S3Error.new .authentication "presigned URL generation failed"
          .never)) := by
  obtain ⟨hendpoint', hregion⟩ := S3ConfigBuilder.build_ok hconfig
  have hurl :
      builder.endpoint.objectUrl grammar config.bucket
        (some key.text) config.addressingStyle =
      .ok target := hendpoint' ▸ htarget
  -- the lifetime is positive, so that the credentials have not expired either
  have hpositive : 0 < Duration.fromSecs seconds :=
    Nat.mul_pos (by omega) (by decide)
  have hfresh : credentials.expiresBy env.now = false := by
    cases hexpiry : credentials.expiresAt with
    | none => simp [Credentials.expiresBy, hexpiry]
    | some expiry =>
        have hends := (houtlast expiry hexpiry).1
        simp only [Credentials.expiresBy, hexpiry, Option.any_some,
          decide_eq_false_iff_not, not_le]
        omega
  have hends : (credentials.expiresAt.any fun credentialExpiry =>
      (checkedExpiry env.now (Duration.fromSecs seconds)).all fun urlExpiry =>
        credentialExpiry ≤ urlExpiry) =
        false := by
    cases hexpiry : credentials.expiresAt with
    | none => rfl
    | some expiry =>
        obtain ⟨hends, hmax⟩ := houtlast expiry hexpiry
        have hsecs : (Duration.fromSecs seconds).asSecs < 2 ^ 63 := by
          rw [(Duration.fromSecs_parts seconds).1]
          omega
        rw [Option.any_some, checkedExpiry, if_pos ⟨hsecs, by omega⟩]
        simpa using hends
  have hsigns :
      (∃ signed, signPresigned crypto credentials.signing config.signingScope
      (presigningRequest target "GET" [] (Duration.fromSecs seconds))
        env.timestamp = .ok signed) ↔
        (∀ c ∈ credentials.accessKeyId, isScopeChar c = true) ∧
            EscapesValid builder.endpoint.basePath := by
    have hpath :
        (∃ uri, canonicalUriFromEncoded target.pathAndQuery = .ok uri) ↔
        EscapesValid builder.endpoint.basePath := by
      obtain ⟨_, -, hparts⟩ := Endpoint.objectUrl_eq hurl
      obtain ⟨rfl, -⟩ := EndpointUrl.fromParts_eq hparts
      rw [canonicalUriFromEncoded_isOk]
      exact escapesValid_objectPath hendpoint (bucket_ne_nil hurl)
    have hhost := namesHost_of_target hgrammar hendpoint hurl
    rw [signPresigned_isOk, presignChecks_isOk hregion hseconds]
    constructor
    · rintro ⟨hkey, -, huri⟩
      exact ⟨hkey, hpath.mp huri⟩
    · rintro ⟨hkey, hbase⟩
      exact ⟨hkey, hhost, hpath.mpr hbase⟩
  rw [← hsigns]
  cases hsigned : signPresigned crypto credentials.signing config.signingScope
      (presigningRequest target "GET" [] (Duration.fromSecs seconds))
          env.timestamp with
  | error e =>
      have hpresign :
          presignedGet crypto grammar config env key
            (Duration.fromSecs seconds) =
          .error (S3Error.new .authentication "presigned URL generation failed"
              .never) := by
        unfold presignedGet presign
        simp only [htarget, hcredentials, bind, Except.bind, hfresh, hends,
          Bool.false_eq_true, if_false, hsigned]
      rw [hpresign]
      simp
  | ok signed =>
      have hpresign :
          presignedGet crypto grammar config env key
            (Duration.fromSecs seconds) =
          .ok (target.serialized ++ '?' :: signed) :=
        presign_of_checks htarget hcredentials hfresh hends hsigned
      rw [hpresign]
      simp

/-! ## Two inputs that are built and not signed -/

/-- A configuration for an endpoint, with the defaults of the builder. -/
def sampleBuilder (endpoint : Endpoint) : S3ConfigBuilder where
  endpoint := endpoint
  region := "us-east-1"
  bucket := some "data".toList
  addressingStyle := .path
  allowHttp := false
  connectTimeout := Duration.fromSecs 10
  attemptTimeout := Duration.fromSecs 30
  operationTimeout := Duration.fromSecs 300
  idleBodyTimeout := Duration.fromSecs 30
  maxXmlResponseSize := 1024 * 1024
  maxErrorResponseSize := 64 * 1024
  retryPolicy := RetryPolicy.standard
  userAgent := "s3-wire"

/-- Credentials without an expiry. -/
def sampleProvided (accessKeyId : Str) : PresignEnv :=
  ⟨Credentials.withExpiration accessKeyId "secret" none none, sampleNow,
    fun _ => ⟨2026, 1, 3, 3, 4, 5⟩⟩

/-- A grammar that asks nothing but visible characters of an authority. -/
def visibleGrammar : UriGrammar :=
  ⟨fun s => ((splitUri s).authority.getD []).all isVisibleChar,
    fun s => s.all isVisibleChar⟩

theorem visibleGrammar_visible : visibleGrammar.Visible := by
  intro s authority haccepted hauthority
  unfold visibleGrammar at haccepted
  simp only [hauthority, Option.getD_some] at haccepted
  exact List.all_eq_true.mp haccepted

/-- An identifier of letters, at an endpoint without a base path. -/
theorem presignedGet_isOk_sample :
    ∃ url, presignedGet standardCrypto visibleGrammar (sampleSettings ['/'])
    (sampleProvided "AKID") sampleKey (Duration.fromSecs 60) = .ok url := by
  have hcredentials : (sampleProvided "AKID").credentials =
      .ok ⟨"AKID", "secret", none, none, List.cons_ne_nil _ _,
        List.cons_ne_nil _ _,
        (Option.some_ne_none []).symm⟩ := rfl
  have hkey : "AKID".toList.all isScopeChar = true := by decide
  have hescapes : EscapesValid (sampleSite ['/']).basePath := by
    have hslash : ('/' : Char) ≠ '%' := by decide
    exact (escapesValid_cons hslash).mpr escapesValid_nil
  refine (@presignedGet_isOk visibleGrammar standardCrypto "https://s3.test"
    (sampleBuilder (sampleSite ['/']))
    (fun _ => true) (sampleSettings ['/']) _
      (sampleProvided "AKID") sampleKey 60 _ visibleGrammar_visible rfl rfl
    hcredentials (by omega) ?_ rfl).1.mpr ⟨List.all_eq_true.mp hkey, hescapes⟩
  intro expiry hexpiry
  cases hexpiry

/-- Everything is built, and neither URL is presigned: of an identifier with a
dot, and at a base path with a broken escape. -/
theorem presignedGet_refuses :
    ((∃ credentials, Credentials.withExpiration "key.id" "secret" none none =
      .ok credentials) ∧
      Endpoint.new visibleGrammar "https://s3.test" = .ok (sampleSite ['/']) ∧
      (sampleBuilder (sampleSite ['/'])).build visibleGrammar (fun _ => true) =
        .ok (sampleSettings ['/']) ∧
      presignedGet standardCrypto visibleGrammar (sampleSettings ['/'])
        (sampleProvided "key.id") sampleKey
          (Duration.fromSecs 60) =
        .error (S3Error.new .authentication "presigned URL generation failed"
          .never)) ∧
    (∃ credentials, Credentials.withExpiration "AKID" "secret" none none =
      .ok credentials) ∧
      Endpoint.new visibleGrammar "https://s3.test/%zz" =
        .ok (sampleSite "/%zz/") ∧
      (sampleBuilder (sampleSite "/%zz/")).build visibleGrammar
        (fun _ => true) = .ok (sampleSettings "/%zz/") ∧
      presignedGet standardCrypto visibleGrammar (sampleSettings "/%zz/")
        (sampleProvided "AKID") sampleKey
          (Duration.fromSecs 60) =
        .error (S3Error.new .authentication "presigned URL generation failed"
          .never) :=
  ⟨⟨⟨_, rfl⟩, rfl, rfl, rfl⟩, ⟨_, rfl⟩, rfl, rfl, rfl⟩

end Construction

end S3Wire
