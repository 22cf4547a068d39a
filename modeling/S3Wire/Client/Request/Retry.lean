/-
# `S3Wire.Client.Request.Retry` — where a retry goes, and how long it waits

`src/client/request/retry.rs`.  A service that answers "wrong region" is
believed about one thing, the name of the region: the host of the next request
is put together from the service and the partition of the CONFIGURED host, which
must be one of the four regional shapes of AWS.  `redirectedAwsAuthority_eq`
says what a corrected authority looks like, and `redirectedAwsAuthority_awsHost`
that it is the one of the endpoint the client would have been configured with.
-/
import S3Wire.Client.Request.Response
import S3Wire.Endpoint

namespace S3Wire

/-! ## The corrected authority -/

/-- `is_regional_name`. -/
def isRegionalName (name service : Str) : Bool :=
  ((name.dropPrefix? service).bind fun rest => rest.dropPrefix? ['.']).any
    isRegion

/-- The name of the service at the head of a regional host. -/
def regionalService (name : Str) : Option Str :=
  if name = "s3".toList ∨ isRegionalName name "s3" then some "s3".toList
  else if isRegionalName name "s3.dualstack" then some "s3.dualstack".toList
  else if isRegionalName name "s3-fips" then some "s3-fips".toList
  else if isRegionalName name "s3-fips.dualstack" then
    some "s3-fips.dualstack".toList
  else none

/-- A host of AWS without its partition, and the partition. -/
def splitPartition (host : Str) : Option (Str × Str) :=
  match host.dropSuffix? ".amazonaws.com.cn".toList with
  | some name => some (name, Endpoint.chinaSuffix)
  | none =>
      (host.dropSuffix? ".amazonaws.com".toList).map fun name =>
        (name, Endpoint.globalSuffix)

/-- The authority of another region, where the endpoint is one of the public
ones. -/
def redirectedAwsAuthority (endpoint : EndpointUrl) (region : Str) :
    Option Str :=
  if endpoint.scheme ≠ "https".toList then none
  else
    match splitPartition (Lib.beforeFirst ':' endpoint.authority) with
    | none => none
    | some (name, suffix) =>
        (regionalService name).map fun service =>
          Endpoint.awsHost service region suffix

/-- The region a response asks to be asked in. -/
def controlledRegionRedirect (status : Nat) (headers : HeaderMap) :
    Option Str :=
  if status ∈ [301, 307, 308, 400] then
    ((headers.get "x-amz-bucket-region").bind HeaderValue.toStr).filter isRegion
  else none

/-! ## The time a service asks for -/

/-- `str::parse::<u64>`. -/
def parseU64 (s : Str) : Option Nat :=
  let digits := if s.head? = some '+' then s.tail else s
  if digits.isEmpty || !digits.all Char.isDigit then none
  else
    let n := digits.foldl (fun n c => 10 * n + (c.toNat - '0'.toNat)) 0
    if n < 2 ^ 64 then some n else none

/-- A number of seconds, or a date; `now` is the wall clock. -/
def parseRetryAfterValue (text : HttpText) (now : Int) (value : HeaderValue) :
    Option Duration :=
  match value.toStr with
  | none => none
  | some value =>
      match parseU64 value with
      | some seconds => some (Duration.fromSecs seconds)
      | none =>
          (text.parseHttpDate value).map fun retryAt => (retryAt - now).toNat

/-- The delay that a service asks for, in seconds or as a date. -/
def parseRetryAfter (text : HttpText) (now : Int) (headers : HeaderMap) :
    Option Duration :=
  ((headers.get "retry-after").bind (parseRetryAfterValue text now)).or
    ((headers.get "x-amz-retry-after").bind (parseRetryAfterValue text now))

/-! ## Regional hosts are recognised -/

section Shapes

variable {name service region host suffix : Str}

theorem isRegionalName_iff :
    isRegionalName name service = true ↔ ∃ region, isRegion region = true ∧
    name = service ++ '.' :: region := by
  constructor
  · intro h
    obtain ⟨region, hsome, hregion⟩ := (Option.any_eq_true _ _).mp h
    obtain ⟨rest, hservice, hdot⟩ := Option.bind_eq_some_iff.mp hsome
    obtain rfl := Lib.dropPrefix?_eq_some.mp hservice
    obtain rfl := Lib.dropPrefix?_eq_some.mp hdot
    exact ⟨region, hregion, rfl⟩
  · rintro ⟨region, hregion, rfl⟩
    have hservice :
        (service ++ '.' :: region).dropPrefix? service = some ('.' :: region) :=
      Lib.dropPrefix?_eq_some.mpr rfl
    have hdot : ('.' :: region).dropPrefix? ['.'] = some region :=
      Lib.dropPrefix?_eq_some.mpr rfl
    rw [isRegionalName, hservice, Option.bind_some, hdot]
    exact hregion

/-- A region holds no dot, so a longer service name is not read as a region. -/
theorem isRegion_eq_false (h : '.' ∈ region) : isRegion region = false := by
  rw [Bool.eq_false_iff]
  intro hregion
  rw [isRegion, Bool.and_eq_true, List.all_eq_true] at hregion
  exact absurd (hregion.2 '.' h) (by decide)

/-- What stands before the region is one of the four services, and a host
without a region is the one of the standard service. -/
theorem regionalService_eq (h : regionalService name = some service) :
    ∃ variant, service = Endpoint.variantPrefix variant ∧
      (name = service ∨ ∃ region, isRegion region = true ∧
        name = service ++ '.' :: region) := by
  rw [regionalService] at h
  split at h
  · next hname =>
      cases h
      refine ⟨.standard, rfl, ?_⟩
      rcases hname with hname | hname
      · exact Or.inl hname
      · exact Or.inr (isRegionalName_iff.mp hname)
  split at h
  · next hname =>
      cases h
      exact ⟨.dualStack, rfl, Or.inr (isRegionalName_iff.mp hname)⟩
  split at h
  · next hname =>
      cases h
      exact ⟨.fips, rfl, Or.inr (isRegionalName_iff.mp hname)⟩
  split at h
  · next hname =>
      cases h
      exact ⟨.fipsDualStack, rfl, Or.inr (isRegionalName_iff.mp hname)⟩
  · cases h

/-- The service of a regional host is read off in the order of the tests: no
earlier test takes the host of a later one. -/
theorem regionalService_variant (variant : AwsEndpointVariant)
    (h : isRegion region = true) :
    regionalService (Endpoint.variantPrefix variant ++ '.' :: region) =
      some (Endpoint.variantPrefix variant) := by
  have hregional :
      isRegionalName (Endpoint.variantPrefix variant ++ '.' :: region)
      (Endpoint.variantPrefix variant) = true :=
        isRegionalName_iff.mpr ⟨region, h, rfl⟩
  -- what follows the shorter name is "dualstack." and a region
  have hdotted : isRegion ("dualstack.".toList ++ region) = false :=
    isRegion_eq_false (List.mem_append_left _ (by decide))
  have hfirst : 2 < (Endpoint.variantPrefix variant).length →
      isRegionalName (Endpoint.variantPrefix variant ++ '.' :: region) "s3" =
        false →
      ¬(Endpoint.variantPrefix variant ++ '.' :: region = "s3".toList ∨
        isRegionalName (Endpoint.variantPrefix variant ++ '.' :: region) "s3" =
            true) := by
    rintro hlength hs3 (hname | hname)
    · have htotal := congrArg List.length hname
      rw [List.length_append] at htotal
      exact absurd (htotal ▸ Nat.lt_of_lt_of_le hlength (Nat.le_add_right _ _))
        (by decide)
    · rw [hs3] at hname
      cases hname
  rw [regionalService]
  cases variant with
  | standard => exact if_pos (Or.inr hregional)
  | dualStack =>
      have hs3 :
        isRegionalName
          (Endpoint.variantPrefix .dualStack ++ '.' :: region) "s3" = false :=
            hdotted
      rw [if_neg (hfirst (by decide) hs3)]
      exact if_pos hregional
  | fips =>
      have hs3 :
        isRegionalName (Endpoint.variantPrefix .fips ++ '.' :: region) "s3" =
          false := rfl
      have hdual :
        isRegionalName
          (Endpoint.variantPrefix .fips ++ '.' :: region) "s3.dualstack" =
            false := rfl
      rw [if_neg (hfirst (by decide) hs3), hdual, if_neg Bool.false_ne_true]
      exact if_pos hregional
  | fipsDualStack =>
      have hs3 :
        isRegionalName
          (Endpoint.variantPrefix .fipsDualStack ++ '.' :: region) "s3" =
            false := rfl
      have hdual :
          isRegionalName
            (Endpoint.variantPrefix .fipsDualStack ++ '.' :: region)
              "s3.dualstack" =
          false := rfl
      have hfips :
          isRegionalName
            (Endpoint.variantPrefix .fipsDualStack ++ '.' :: region) "s3-fips" =
          false := hdotted
      rw [if_neg (hfirst (by decide) hs3), hdual, if_neg Bool.false_ne_true,
        hfips,
        if_neg Bool.false_ne_true]
      exact if_pos hregional

theorem splitPartition_eq (h : splitPartition host = some (name, suffix)) :
    (suffix = Endpoint.chinaSuffix ∨ suffix = Endpoint.globalSuffix) ∧
    host = name ++ '.' :: suffix := by
  rw [splitPartition] at h
  split at h
  · next hchina =>
      cases h
      exact ⟨Or.inl rfl, Lib.dropSuffix?_eq_some.mp hchina⟩
  · obtain ⟨name', hglobal, heq⟩ := Option.map_eq_some_iff.mp h
    obtain ⟨rfl, rfl⟩ := Prod.mk.inj heq
    exact ⟨Or.inr rfl, Lib.dropSuffix?_eq_some.mp hglobal⟩

theorem splitPartition_append
    (h : suffix = Endpoint.chinaSuffix ∨ suffix = Endpoint.globalSuffix) :
    splitPartition (name ++ '.' :: suffix) = some (name, suffix) := by
  rw [splitPartition]
  rcases h with rfl | rfl
  · have hchina :
        (name ++ '.' :: Endpoint.chinaSuffix).dropSuffix?
            ".amazonaws.com.cn".toList = some name :=
      Lib.dropSuffix?_eq_some.mpr rfl
    rw [hchina]
  · have hglobal :
        (name ++ '.' :: Endpoint.globalSuffix).dropSuffix?
            ".amazonaws.com".toList = some name :=
      Lib.dropSuffix?_eq_some.mpr rfl
    have hchina :
        (name ++ '.' :: Endpoint.globalSuffix).dropSuffix?
            ".amazonaws.com.cn".toList = none := by
      rw [Option.eq_none_iff_forall_ne_some]
      intro other hother
      have hlast := congrArg List.getLast? (Lib.dropSuffix?_eq_some.mp hother)
      rw [List.getLast?_append_of_ne_nil _ (by simp),
        List.getLast?_append_of_ne_nil _ (by decide)] at hlast
      exact absurd hlast (by decide)
    rw [hchina]
    dsimp only
    rw [hglobal]
    rfl

end Shapes

/-! ## What a corrected authority is -/

section Redirected

variable {endpoint : EndpointUrl} {region authority : Str}

theorem controlledRegionRedirect_isRegion {status : Nat} {headers : HeaderMap}
    (h : controlledRegionRedirect status headers = some region) :
    isRegion region = true := by
  rw [controlledRegionRedirect] at h
  split at h
  · exact (Option.filter_eq_some_iff.mp h).2
  · cases h

/-- The configured host is a regional one, and its region alone is replaced. -/
theorem redirectedAwsAuthority_eq
    (h : redirectedAwsAuthority endpoint region = some authority) :
    endpoint.scheme = "https".toList ∧ ∃ variant suffix,
      (suffix = Endpoint.chinaSuffix ∨ suffix = Endpoint.globalSuffix) ∧
      authority =
        Endpoint.awsHost (Endpoint.variantPrefix variant) region suffix ∧
      (Lib.beforeFirst ':' endpoint.authority =
        Endpoint.variantPrefix variant ++ '.' :: suffix ∨
        ∃ configured, isRegion configured = true ∧
          Lib.beforeFirst ':' endpoint.authority =
            Endpoint.awsHost
              (Endpoint.variantPrefix variant) configured suffix) := by
  rw [redirectedAwsAuthority] at h
  split at h
  · cases h
  · next hscheme =>
      refine ⟨not_not.mp hscheme, ?_⟩
      split at h
      · cases h
      · next name suffix hsplit =>
          obtain ⟨service, hservice, rfl⟩ := Option.map_eq_some_iff.mp h
          obtain ⟨hsuffix, hhost⟩ := splitPartition_eq hsplit
          obtain ⟨variant, rfl, hname⟩ := regionalService_eq hservice
          refine ⟨variant, suffix, hsuffix, rfl, ?_⟩
          rw [hhost]
          rcases hname with rfl | ⟨configured, hconfigured, rfl⟩
          · exact Or.inl rfl
          · refine Or.inr ⟨configured, hconfigured, ?_⟩
            rw [Endpoint.awsHost, List.append_assoc, List.cons_append]

theorem redirectedAwsAuthority_awsHost {variant : AwsEndpointVariant}
    {configured suffix : Str} (hscheme : endpoint.scheme = "https".toList)
    (hauthority : endpoint.authority =
      Endpoint.awsHost (Endpoint.variantPrefix variant) configured suffix)
    (hconfigured : isRegion configured = true)
    (hsuffix : suffix = Endpoint.chinaSuffix ∨ suffix = Endpoint.globalSuffix) :
    redirectedAwsAuthority endpoint region =
      some (Endpoint.awsHost
        (Endpoint.variantPrefix variant) region suffix) := by
  have hcolon :
      ':' ∉ Endpoint.awsHost
          (Endpoint.variantPrefix variant) configured suffix := fun hmem =>
    hostChar_ne (awsHost_chars hconfigured hsuffix _ hmem) (by decide) rfl
  have hhost :
      Endpoint.awsHost (Endpoint.variantPrefix variant) configured suffix =
      (Endpoint.variantPrefix variant ++ '.' :: configured) ++
          '.' :: suffix := by
    rw [Endpoint.awsHost, List.append_assoc, List.cons_append]
  rw [redirectedAwsAuthority, if_neg (not_not.mpr hscheme), hauthority,
    Lib.beforeFirst_of_not_mem hcolon,
    hhost, splitPartition_append hsuffix]
  dsimp only
  rw [regionalService_variant variant hconfigured]
  rfl

end Redirected

end S3Wire
