/-
# `S3Wire.Client.Request.Targets` — where the requests of one operation go

A request goes to the target of the operation, signed for the configured region,
until a service asks for another region; then the authority and the region are
exchanged together, once, and scheme, path and query stay.  `Aims` is that
invariant of the loop, `aims_turn` its step lemma.  The corrected authority is
one that the endpoint of the other region would have had (`corrected_eq`).
-/
import S3Wire.Client.Recompute
import S3Wire.Client.Request.Execute

namespace S3Wire

/-! ## A corrected authority is an endpoint's -/

section Regional

variable {grammar : UriGrammar} {bucket host : Str} {key : Option Str}
  {style : AddressingStyle}
  {url : EndpointUrl}

theorem Endpoint.objectUrl_atHost (hchars : ∀ c ∈ host, isHostChar c = true)
    (h : (atHost host).objectUrl grammar bucket key style = .ok url) :
    url.scheme = "https".toList ∧
      url.authority = style.serviceAuthority bucket host ∧
      url.pathAndQuery = (atHost host).objectPath bucket key style := by
  obtain ⟨authority, hauthority, hparts⟩ := objectUrl_eq h
  obtain ⟨rfl, -⟩ := EndpointUrl.fromParts_eq hparts
  refine ⟨rfl, ?_, rfl⟩
  show authority = _
  cases style with
  | path =>
      cases hauthority
      rfl
  | virtualHosted =>
      have hown : (atHost host).url.authority = host := rfl
      rw [objectAuthority] at hauthority
      split at hauthority
      · cases hauthority
      split at hauthority
      · cases hauthority
      dsimp only at hauthority
      rw [hown, Authority.host_eq hchars, Authority.port_eq_none hchars]
        at hauthority
      split at hauthority
      · cases hauthority
      · cases hauthority
        rfl

/-- A query that went into one target goes into another with the same path. -/
theorem EndpointUrl.withQuery_congr {url' first : EndpointUrl} {query : Str}
    (hpath : url'.pathAndQuery = url.pathAndQuery)
    (h : url.withQuery grammar query = .ok first) :
    url'.withQuery grammar query =
      fromParts grammar url'.scheme url'.authority first.pathAndQuery := by
  rw [withQuery] at h ⊢
  split at h
  · cases h
  · next hquery =>
      obtain ⟨rfl, -⟩ := fromParts_eq h
      rw [if_neg hquery, hpath]

end Regional

namespace SendState

/-! ## The invariant -/

section Aims

variable {client : S3Client} {call : SignedSend} {s s' : SendState}
  {label : SendLabel}
  {first : EndpointUrl} {region : Str}

/-- A target that a service was allowed to send the operation to. -/
structure Corrected (client : S3Client) (first target : EndpointUrl)
    (region : Str) : Prop where
  named : isRegion region = true
  exchanged : ∃ authority,
    redirectedAwsAuthority client.config.endpoint.url region = some authority ∧
    first.withAuthority client.grammar
      (client.config.serviceAuthority authority) = .ok target

/-- A transmission to a target, signed for a region. -/
structure SentTo (goal : EndpointUrl) (region : Str) (t : Transmission) :
    Prop where
  target : t.target = goal
  region : t.signingRegion = region
  uri : t.request.uri = goal.serialized

/-- Before a correction everything goes to the first target, and after it to one
other. -/
inductive Aims (client : S3Client) (first : EndpointUrl) (s : SendState) : Prop
  | configured (hredirected : s.regionRedirected = false)
    (htarget : s.target = first)
      (hregion : s.signingRegion = client.config.region)
      (hsent : ∀ t ∈ transmissions s.log, SentTo first client.config.region t)
  | corrected (hredirected : s.regionRedirected = true)
      (hcorrected : Corrected client first s.target s.signingRegion)
      (hsent : ∀ t ∈ transmissions s.log,
        SentTo first client.config.region t ∨ SentTo s.target s.signingRegion t)

theorem correction_eq {response : ResponseHead} {authority : Str}
    (h : s.correction client call response = some (region, authority)) :
    s.regionRedirected = false ∧ isRegion region = true ∧ ∃ service,
      redirectedAwsAuthority client.config.endpoint.url region = some service ∧
      authority = client.config.serviceAuthority service ∧
      call.isReplayable = true ∧
      s.attemptsCompleted < client.config.retryPolicy.maxAttempts ∧
      s.clock - s.started < client.config.retryPolicy.maxElapsed := by
  rw [correction] at h
  split at h
  · cases h
  · next hfirst =>
      split at h
      · cases h
      · next asked hasked =>
          split at h
          · cases h
          · next service hservice =>
              split at h
              · next hguard =>
                  cases h
                  exact ⟨Bool.eq_false_iff.mpr hfirst,
                    controlledRegionRedirect_isRegion hasked, service,
                    hservice, rfl, hguard.1, hguard.2.1, hguard.2.2⟩
              · cases h

/-- What is neither sent nor aimed elsewhere leaves the invariant alone. -/
theorem Aims.of_eq (haims : Aims client first s)
    (hredirected : s'.regionRedirected = s.regionRedirected)
    (htarget : s'.target = s.target)
    (hregion : s'.signingRegion = s.signingRegion)
    (hsent : transmissions s'.log = transmissions s.log) :
    Aims client first s' := by
  cases haims with
  | configured hr ht hg hs =>
      exact .configured (hredirected.trans hr) (htarget.trans ht)
        (hregion.trans hg) (hsent ▸ hs)
  | corrected hr hc hs =>
      refine .corrected (hredirected.trans hr) (htarget ▸ hregion ▸ hc) ?_
      rw [hsent, htarget, hregion]
      exact hs

theorem aims_turn (h : Turn client call s label s')
    (haims : Aims client first s) : Aims client first s' := by
  cases h with
  | checked => exact haims.of_eq rfl rfl rfl rfl
  | expired => exact haims.of_eq rfl rfl rfl rfl
  | timedOut => exact haims.of_eq rfl rfl rfl rfl
  | refused => exact haims.of_eq rfl rfl rfl rfl
  | late => exact haims.of_eq rfl rfl rfl rfl
  | woke => exact haims.of_eq rfl rfl rfl rfl
  | succeeded => exact haims.of_eq rfl rfl rfl rfl
  | reading => exact haims.of_eq rfl rfl rfl rfl
  | strayed => exact haims.of_eq rfl rfl rfl rfl
  | stopped => exact haims.of_eq rfl rfl rfl rfl
  | scheduled => exact haims.of_eq rfl rfl rfl rfl
  | corrected hphase hstays hclock hcorrection htarget =>
      obtain ⟨hfirst, hregion, service, hservice, rfl, -⟩ :=
        correction_eq hcorrection
      cases haims with
      | configured hredirected hat hconfigured hsent =>
          subst hat
          exact .corrected rfl ⟨hregion, service, hservice, htarget⟩ fun t ht =>
            Or.inl (hsent t ht)
      | corrected hredirected =>
          cases hredirected.symm.trans hfirst
  | @sent wait beforeRemaining answer request body clock hphase hsigned hnow
      hclock =>
      have huri : request.uri = s.target.serialized :=
        (signedRequest_ok (congrArg Prod.fst hsigned)).2.2
      cases haims with
      | configured hredirected hat hconfigured hsent =>
          refine .configured hredirected hat hconfigured ?_
          rw [transmissions_sent, List.forall_mem_cons]
          exact ⟨⟨hat, hconfigured, hat ▸ huri⟩, hsent⟩
      | corrected hredirected hcorrected hsent =>
          refine .corrected hredirected hcorrected ?_
          rw [transmissions_sent, List.forall_mem_cons]
          exact ⟨Or.inr ⟨rfl, rfl, huri⟩, hsent⟩

theorem initial_eq
    (hfirst : call.target.withQuery client.grammar (canonicalQuery call.query) =
      .ok first) (started : Instant) :
    initial client call started =
      initial.initialAt client call started first .head := by
  rw [initial, hfirst]

theorem aims_initial (started : Instant) :
    Aims client first (initial.initialAt client call started first .head) := by
  refine .configured rfl rfl rfl ?_
  intro t ht
  cases ht

theorem aims_of_reaches {started : Instant} {labels : List SendLabel}
    (hfirst : call.target.withQuery client.grammar (canonicalQuery call.query) =
      .ok first)
    (h : Reaches client call started labels s) : Aims client first s := by
  refine Lib.exec_invariant (fun hstep => aims_turn (step_turn hstep)) h ?_
  rw [initial_eq hfirst]
  exact aims_initial started

end Aims

/-! ## Where requests go -/

section Goals

variable {client : S3Client} {call : SignedSend} {s : SendState}
  {key : Option Str}
  {first target : EndpointUrl} {region : Str}

/-- The configured host is one of the four regional shapes of AWS, and the
target differs from it in the region. -/
def ExchangesRegion (config : S3Config) (target : EndpointUrl) (region : Str) :
    Prop :=
  config.endpoint.url.scheme = "https".toList ∧ isRegion region = true ∧
    ∃ variant suffix,
    (suffix = Endpoint.chinaSuffix ∨ suffix = Endpoint.globalSuffix) ∧
    target.authority =
      config.serviceAuthority
        (Endpoint.awsHost (Endpoint.variantPrefix variant) region suffix) ∧
    (Lib.beforeFirst ':' config.endpoint.url.authority =
      Endpoint.variantPrefix variant ++ '.' :: suffix ∨
      ∃ configured, isRegion configured = true ∧
        Lib.beforeFirst ':' config.endpoint.url.authority =
        Endpoint.awsHost (Endpoint.variantPrefix variant) configured suffix)

theorem Corrected.exchangesRegion (h : Corrected client first target region) :
    ExchangesRegion client.config target region ∧ target.scheme = first.scheme ∧
      target.pathAndQuery = first.pathAndQuery := by
  obtain ⟨authority, hauthority, htarget⟩ := h.exchanged
  obtain ⟨rfl, -⟩ :=
    EndpointUrl.fromParts_eq (EndpointUrl.withAuthority_eq htarget)
  obtain ⟨hscheme, variant, suffix, hsuffix, rfl, hhost⟩ :=
    redirectedAwsAuthority_eq hauthority
  exact ⟨⟨hscheme, h.named, variant, suffix, hsuffix, rfl, hhost⟩, rfl, rfl⟩

/-- The corrected target is the one of the endpoint of the other region. -/
theorem Corrected.eq_variant {configured : Str} {variant : AwsEndpointVariant}
    {e : Endpoint} {url : EndpointUrl}
    (h : Corrected client first target region)
    (htarget : client.config.operationTarget client.grammar key =
      .ok call.target)
    (hfirst : call.target.withQuery client.grammar (canonicalQuery call.query) =
      .ok first)
    (hendpoint :
    Endpoint.forAwsRegionVariant client.grammar configured variant =
      .ok client.config.endpoint)
    (hpartition : Endpoint.isChina region = Endpoint.isChina configured)
    (he : Endpoint.forAwsRegionVariant client.grammar region variant = .ok e)
    (hurl : e.objectUrl client.grammar client.config.bucket key
      client.config.addressingStyle = .ok url) :
    url.withQuery client.grammar (canonicalQuery call.query) = .ok target := by
  obtain ⟨authority, hauthority, hwith⟩ := h.exchanged
  obtain ⟨hconfigured, hconfig⟩ := Endpoint.forAwsRegionVariant_eq hendpoint
  obtain ⟨hregion, rfl⟩ := Endpoint.forAwsRegionVariant_eq he
  have hsuffix :
      Endpoint.regionSuffix configured = Endpoint.regionSuffix region := by
    rw [Endpoint.regionSuffix, Endpoint.regionSuffix, hpartition]
  have hexchanged :=
    @redirectedAwsAuthority_awsHost client.config.endpoint.url region variant
      configured
    (Endpoint.regionSuffix configured) (by rw [hconfig]; rfl)
      (by rw [hconfig]; rfl) hconfigured
    (regionSuffix_cases configured)
  obtain rfl := Option.some.inj (hexchanged.symm.trans hauthority)
  have hchars := fun r (hr : isRegion r = true) =>
    @awsHost_chars r variant _ hr (regionSuffix_cases r)
  obtain ⟨hscheme, howner, hpath⟩ :=
    Endpoint.objectUrl_atHost (hchars region hregion) hurl
  have hcall : call.target.pathAndQuery = url.pathAndQuery := by
    rw [S3Config.operationTarget, hconfig] at htarget
    rw [(Endpoint.objectUrl_atHost (hchars configured hconfigured) htarget).2.2,
      hpath]
    rfl
  have hfirstScheme : first.scheme = "https".toList := by
    rw [S3Config.operationTarget, hconfig] at htarget
    obtain ⟨rfl, -⟩ :=
      EndpointUrl.fromParts_eq (EndpointUrl.withQuery_eq hfirst).2
    exact (Endpoint.objectUrl_atHost (hchars configured hconfigured) htarget).1
  rw [EndpointUrl.withQuery_congr hcall.symm hfirst, hscheme, howner,
    ← hfirstScheme,
    ← EndpointUrl.withAuthority_eq hwith, hsuffix]
  rfl

/-- What holds of every request of an operation on an object; `corrected` is
where it goes after a correction. -/
structure GoesTo (client : S3Client) (call : SignedSend) (key : Option Str)
    (corrected : EndpointUrl × Str) (t : Transmission) : Prop where
  uri : t.request.uri = t.target.serialized
  scheme : t.target.scheme = client.config.endpoint.url.scheme
  pathAndQuery : ∃ first,
    call.target.withQuery client.grammar (canonicalQuery call.query) =
      .ok first ∧
    t.target.pathAndQuery = first.pathAndQuery
  authority :
    (t.target.authority = call.target.authority ∧
      t.signingRegion = client.config.region) ∨
    ((t.target, t.signingRegion) = corrected ∧
      ExchangesRegion client.config t.target t.signingRegion ∧
      ∀ configured variant e url,
        Endpoint.forAwsRegionVariant client.grammar configured variant =
          .ok client.config.endpoint →
        Endpoint.isChina t.signingRegion = Endpoint.isChina configured →
        Endpoint.forAwsRegionVariant client.grammar t.signingRegion variant =
          .ok e →
        e.objectUrl client.grammar client.config.bucket key
          client.config.addressingStyle = .ok url →
        url.withQuery client.grammar (canonicalQuery call.query) = .ok t.target)

theorem reaches_of_error {started : Instant} {labels : List SendLabel}
    {e : S3Error}
    (hfirst : call.target.withQuery client.grammar (canonicalQuery call.query) =
      .error e)
    (h : Reaches client call started labels s) :
    labels = [] ∧
    s = initial.initialAt client call started call.target
      (.finished (.error e)) := by
  rw [Reaches, initial, hfirst] at h
  cases labels with
  | nil =>
      cases h
      exact ⟨rfl, rfl⟩
  | cons label rest =>
      obtain ⟨m, hm, -⟩ := Lib.exec_cons h
      cases label with
      | check => cases hm
      | sign => cases hm
      | respond => cases hm
      | collect => cases hm
      | wake => cases hm

/-- **Where the requests of an operation go.** -/
theorem sendSigned_targets {started : Instant} {labels : List SendLabel}
    (htarget : client.config.operationTarget client.grammar key =
      .ok call.target)
    (h : Reaches client call started labels s) :
    ∃ corrected, ∀ t ∈ transmissions s.log,
      GoesTo client call key corrected t := by
  obtain ⟨authority, -, hparts⟩ := Endpoint.objectUrl_eq htarget
  have hscheme : call.target.scheme = client.config.endpoint.url.scheme := by
    obtain ⟨hparts, -⟩ := EndpointUrl.fromParts_eq hparts
    rw [hparts]
  cases hfirst :
      call.target.withQuery client.grammar (canonicalQuery call.query) with
  | error e =>
      refine ⟨(call.target, []), fun t ht => ?_⟩
      rw [(reaches_of_error hfirst h).2] at ht
      cases ht
  | ok first =>
      have hfirstParts :=
        EndpointUrl.fromParts_eq (EndpointUrl.withQuery_eq hfirst).2
      have hconfigured : ∀ {corrected : EndpointUrl × Str} {t : Transmission},
          SentTo first client.config.region t →
              GoesTo client call key corrected t := by
        rintro corrected t ⟨rfl, hregion, huri⟩
        refine ⟨huri, ?_, ⟨_, hfirst, rfl⟩, Or.inl ⟨?_, hregion⟩⟩
        · rw [hfirstParts.1, ← hscheme]
        · rw [hfirstParts.1]
      cases aims_of_reaches hfirst h with
      | configured hredirected hat hregion hsent =>
          exact ⟨(first, client.config.region),
            fun t ht => hconfigured (hsent t ht)⟩
      | corrected hredirected hcorrected hsent =>
          refine ⟨(s.target, s.signingRegion), fun t ht => ?_⟩
          rcases hsent t ht with hfirstSent | ⟨hat, hregion, huri⟩
          · exact hconfigured hfirstSent
          obtain ⟨hexchanges, hsame, hpath⟩ := hcorrected.exchangesRegion
          refine ⟨hat ▸ huri, ?_, ⟨first, hfirst, hat ▸ hpath⟩,
            Or.inr ⟨by rw [hat, hregion], ?_, ?_⟩⟩
          · rw [hat, hsame, hfirstParts.1, ← hscheme]
          · rw [hat, hregion]
            exact hexchanges
          · intro configured variant e url hendpoint hpartition he hurl
            rw [hregion] at hpartition he
            rw [hat]
            exact hcorrected.eq_variant htarget hfirst hendpoint hpartition he
              hurl

end Goals

/-! A listing that is sent to another region. -/

def sampleConfig : S3Config where
  endpoint := sampleEndpoint
  region := "us-east-1"
  bucket := "bucket"
  addressingStyle := .path
  attemptTimeout := Duration.fromSecs 10
  operationTimeout := Duration.fromSecs 60
  idleBodyTimeout := Duration.fromSecs 30
  maxXmlResponseSize := 1048576
  maxErrorResponseSize := 65536
  retryPolicy := RetryPolicy.standard

def sampleClient : S3Client where
  config := sampleConfig
  grammar := permissive
  crypto := standardCrypto
  text := ⟨fun _ => none, fun _ => none⟩
  parseS3Error := fun _ _ => none

def sampleSend : SignedSend where
  method := "GET"
  target := sampleTarget "/bucket"
  query := [⟨"list-type", "2"⟩]
  headers := HeaderMap.new
  body := none
  deadline := Duration.fromSecs 60
  successMode := .streaming

/-- The digest of nothing. -/
def emptyPayloadHash : Str :=
  "e3b0c44298fc1c149afbf4c8996fb92427ae41e4649b934ca495991b7852b855"

theorem sampleSend_payloadHash :
    sampleSend.payloadHash sampleClient.crypto = emptyPayloadHash := by
  decide +kernel

def sampleHost (region : Str) : Str :=
  Endpoint.awsHost "s3" region Endpoint.globalSuffix

def sampleRegionalTarget (region : Str) : EndpointUrl :=
  ⟨"https://".toList ++ sampleHost region ++ "/bucket?list-type=2".toList,
    "https", sampleHost region,
    "/bucket?list-type=2"⟩

def sampleInput (region : Str) : SignedRequestInput :=
  ⟨"GET", sampleRegionalTarget region, [⟨"list-type", "2"⟩], HeaderMap.new,
    none, emptyPayloadHash, region⟩

def sampleHeaders (region : Str) : List Header :=
  [⟨"host", sampleHost region⟩, ⟨"x-amz-content-sha256", emptyPayloadHash⟩]

def sampleSigned (region : Str) : CanonicalHeaders where
  canonical :=
    "host:".toList ++ sampleHost region ++ "\nx-amz-content-sha256:".toList ++
      emptyPayloadHash ++
    "\nx-amz-date:20240102T030405Z\nx-amz-security-token:token\n".toList
  signed := sampleNames

theorem sampleInput_signs {region : Str}
    (hregion : region = "us-east-1".toList ∨ region = "us-west-2".toList) :
    ∃ request,
      signedRequest standardCrypto sampleSigningEnv (sampleInput region) =
        (.ok request, none) := by
  have hhost : (Lib.utf8 (sampleHost region)).all isHeaderValueByte = true := by
    rcases hregion with rfl | rfl <;> decide
  have hbase :
      unsignedHeaders (sampleInput region) = .ok ((HeaderMap.new.insert .host
      ⟨Lib.utf8 (sampleHost region), hhost⟩).insert .amzContentSha256
        ⟨Lib.utf8 emptyPayloadHash, by decide⟩) := by
    rcases hregion with rfl | rfl <;> rfl
  have howned :
      ownedHeaders
        ((HeaderMap.new.insert .host
          ⟨Lib.utf8 (sampleHost region), hhost⟩).insert
      .amzContentSha256 ⟨Lib.utf8 emptyPayloadHash, by decide⟩) =
          .ok (sampleHeaders region) := by
    rcases hregion with rfl | rfl <;> rfl
  have hcommon :
      validateCommon sampleCredentials.signing
          (sampleInput region).scope "GET".toList = .ok () := by
    rcases hregion with rfl | rfl <;> decide
  have hreserved : rejectReservedHeaders (sampleHeaders region) = .ok () := by
    rcases hregion with rfl | rfl <;> decide
  have hcanonical : canonicalRequest sampleCredentials.signing
      ((sampleInput region).signingRequest (sampleHeaders region))
        (formatTimestamp sampleSigningEnv.timestamp).1 =
          .ok (sampleSigned region,
          "GET\n/bucket\nlist-type=2\n".toList ++
            (sampleSigned region).canonical ++ '\n' ::
            (sampleNames ++ '\n' :: emptyPayloadHash)) := by
    rcases hregion with rfl | rfl <;> decide +kernel
  have hpreamble :
      (Lib.utf8
        (algorithm ++ " Credential=".toList ++
          sampleCredentials.signing.accessKeyId ++
      '/' :: (credentialScope (formatTimestamp sampleSigningEnv.timestamp).2
        (sampleInput region).scope ++
        ", SignedHeaders=".toList ++ sampleNames ++
            ", Signature=".toList))).all isHeaderValueByte = true := by
    rcases hregion with rfl | rfl <;> decide +kernel
  have htoken : ∀ token, sampleCredentials.sessionToken = some token →
      (Lib.utf8 token).all isHeaderValueByte = true := by
    intro token htoken
    cases htoken
    decide
  have hpayload : validatePayloadHash emptyPayloadHash = .ok () := by decide
  exact signedRequest_of_checks rfl hbase rfl
    (by decide) howned hcommon hpayload hreserved hcanonical
    hpreamble (by decide) htoken

theorem step_check {client : S3Client} {call : SignedSend} {s : SendState}
    {wait left : Duration} (hphase : s.phase = .head)
    (hleft : remaining call.deadline (s.clock + wait) = .ok left) :
    step client call s (.check wait) =
      some { s.after wait with phase := .signing } := by
  have hleft' : remaining call.deadline (s.after wait).clock = .ok left := hleft
  rw [step.eq_def, hphase]
  dsimp only
  rw [hleft']

theorem sign_ok {client : S3Client} {call : SignedSend} {s : SendState}
    {answer : SigningEnv} {request : HttpRequest} {body : Option PreparedBody}
    {wait left : Duration}
    (hsigned : signedRequest client.crypto answer (s.signingInput client call) =
      (.ok request, body))
    (hleft : remaining call.deadline (s.clock + wait) = .ok left) :
    s.sign client call answer wait =
      ({ s with body := body }.after wait).beginAttempt client call request
        left := by
  have hleft' :
    remaining call.deadline ({ s with body := body }.after wait).clock =
      .ok left := hleft
  rw [sign, hsigned]
  dsimp only
  rw [hleft']

theorem sample_attempt {s : SendState} {region : Str} {call : SignedSend}
    {wait : Duration} (hphase : s.phase = .head)
    (hregion : region = "us-east-1".toList ∨ region = "us-west-2".toList)
    (hinput : s.signingInput sampleClient call = sampleInput region)
    (hclock : s.clock + wait < call.deadline) :
    ∃ request, Lib.exec (step sampleClient call) s
        [.check 0, .sign wait (some sampleSigningEnv) 0] =
      some (({ s with phase := .signing, body := none
                      clock := s.clock + wait }).beginAttempt sampleClient call
        request (call.deadline - (s.clock + wait))) := by
  obtain ⟨request, hrequest⟩ := sampleInput_signs hregion
  have hearly : s.clock < call.deadline :=
    Nat.lt_of_le_of_lt (Nat.le_add_right _ _) hclock
  have hleft :
    remaining call.deadline (s.clock + wait) =
      .ok (call.deadline - (s.clock + wait)) := if_pos hclock
  have hcheck :
      step sampleClient call s (.check 0) = some { s with phase := .signing } :=
    step_check hphase (if_pos hearly)
  have hsign :
      step sampleClient call { s with phase := .signing }
        (.sign wait (some sampleSigningEnv) 0) =
      some (({ s with phase := .signing, body := none
                      clock := s.clock + wait }).beginAttempt sampleClient call
        request (call.deadline - (s.clock + wait))) := by
    show some
      (({ s with phase := .signing }.after wait).sign sampleClient call
        sampleSigningEnv 0) = _
    have hinput' :
        ({ s with phase := .signing }.after wait).signingInput sampleClient
          call =
        sampleInput region := hinput
    have hcrypto : sampleClient.crypto = standardCrypto := rfl
    rw [← hinput', ← hcrypto] at hrequest
    exact congrArg some (sign_ok hrequest hleft)
  exact ⟨request, by simp only [Lib.exec, hcheck, hsign]⟩

theorem sample_input {s : SendState} {region : Str} {deadline : Instant}
    (htarget : s.target = sampleRegionalTarget region)
    (hregion : s.signingRegion = region) (hbody : s.body = none) :
    s.signingInput sampleClient { sampleSend with deadline := deadline } =
      sampleInput region := by
  show (⟨"GET", s.target, [⟨"list-type", "2"⟩], HeaderMap.new, s.body,
    sampleSend.payloadHash sampleClient.crypto,
      s.signingRegion⟩ : SignedRequestInput) = _
  rw [htarget, hregion, hbody, sampleSend_payloadHash]
  rfl

/-- "Ask in Oregon." -/
def sampleRedirect : ResponseHead where
  status := 301
  headers :=
    HeaderMap.new.insert (.fromStatic "x-amz-bucket-region" (by decide))
    ⟨Lib.utf8 "us-west-2".toList, by decide⟩
  sizeUpper := none

/-- Time stands still, the quota is full and the draw is the smallest. -/
def quietEnv : OutcomeEnv := ⟨0, 0, 0, 0, RetryQuota.new⟩

def sampleRound : List SendLabel :=
  [.check 0, .sign 0 (some sampleSigningEnv) 0]

theorem sample_sent :
    ∃ s : SendState, Reaches sampleClient sampleSend 0 sampleRound s ∧
    s.phase = .sending ∧
    s.target = sampleRegionalTarget "us-east-1" ∧
    s.signingRegion = "us-east-1".toList ∧
    s.regionRedirected = false ∧ s.body = none ∧ s.started = 0 ∧ s.clock = 0 ∧
    s.attemptsCompleted = 1 ∧
    (transmissions s.log).map Transmission.signingRegion =
      ["us-east-1".toList] := by
  have hinitial : (initial sampleClient sampleSend 0).target =
      sampleRegionalTarget "us-east-1" := rfl
  obtain ⟨request, hrun⟩ :=
    @sample_attempt (initial sampleClient sampleSend 0) "us-east-1" sampleSend 0
      rfl
    (Or.inl rfl) (sample_input hinitial rfl rfl) (by decide)
  rw [beginAttempt_eq] at hrun
  exact ⟨_, hrun, rfl, rfl, rfl, rfl, rfl, rfl, rfl, rfl, rfl⟩

theorem sample_redirect {s : SendState} (hphase : s.phase = .sending)
    (hfirst : s.regionRedirected = false)
    (htarget : s.target = sampleRegionalTarget "us-east-1")
    (hattempts : s.attemptsCompleted = 1) (hclock : s.clock = 0)
    (hstarted : s.started = 0) :
    Lib.exec (step sampleClient sampleSend) s
      [.respond 0 (.ok sampleRedirect) quietEnv] =
      some { s with
        phase := .head
        target := sampleRegionalTarget "us-west-2"
        signingRegion := "us-west-2"
        regionRedirected := true
        delay := 0
        log := .observed (.redirected "GET" 1) :: s.log } := by
  obtain ⟨phase, target, region, redirected, body, started, clock, attempts,
    cost, permit, delay, log⟩ := s
  cases hphase
  cases hfirst
  cases htarget
  cases hattempts
  cases hclock
  cases hstarted
  rfl

theorem sample_redirected : ∃ s, Reaches sampleClient sampleSend 0
    (sampleRound ++ ([.respond 0 (.ok sampleRedirect) quietEnv] ++ sampleRound))
      s ∧ s.phase = .sending ∧
      (transmissions s.log).map Transmission.signingRegion =
        ["us-west-2".toList, "us-east-1".toList] := by
  obtain ⟨m₁, hm₁, hsending, hconfigured, -, hunturned, hnobody, hstarted,
    hzero, hattempts, hpast⟩ := sample_sent
  have hturned :=
    sample_redirect hsending hunturned hconfigured hattempts hzero hstarted
  obtain ⟨m, hm, hphase, htarget, hregion, hbody, hclock, hsent⟩ :
      ∃ m : SendState,
      Lib.exec (step sampleClient sampleSend) m₁
        [.respond 0 (.ok sampleRedirect) quietEnv] = some m ∧
        m.phase = .head ∧ m.target = sampleRegionalTarget "us-west-2" ∧
          m.signingRegion = "us-west-2".toList ∧
        m.body = none ∧ m.clock = 0 ∧
        (transmissions m.log).map Transmission.signingRegion = ["us-east-1".toList] :=
    ⟨_, hturned, rfl, rfl, rfl, hnobody, hzero, hpast⟩
  obtain ⟨second, hsecond⟩ :=
    @sample_attempt m "us-west-2" sampleSend 0 hphase (Or.inr rfl)
    (sample_input htarget hregion hbody) (by rw [hclock]; decide)
  have hrun :=
    (Lib.exec_append _ hm₁).trans ((Lib.exec_append _ hm).trans hsecond)
  refine ⟨_, hrun, rfl, ?_⟩
  rw [beginAttempt_eq]
  show m.signingRegion ::
    (transmissions
      (m.pendingRetryPermit.toList.map .permitCommitted ++ m.log)).map
    Transmission.signingRegion = _
  rw [transmissions_committed, hsent, hregion]

theorem sendSigned_targets_redirected : ∃ s, Reaches sampleClient sampleSend 0
    (sampleRound ++ ([.respond 0 (.ok sampleRedirect) quietEnv] ++ sampleRound))
      s ∧
      ∃ corrected, ∀ t ∈ transmissions s.log,
        GoesTo sampleClient sampleSend none corrected t := by
  obtain ⟨s, hs, -⟩ := sample_redirected
  exact ⟨s, hs, @sendSigned_targets _ _ _ none _ _ rfl hs⟩

end SendState

end S3Wire
