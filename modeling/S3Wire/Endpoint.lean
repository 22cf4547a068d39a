/-
# `S3Wire.Endpoint` — endpoints and exact request targets

`src/endpoint/mod.rs`.  An `EndpointUrl` keeps its scheme, its authority and its
path with query apart and as they go over the wire; nothing is resolved or
collapsed. `Target` collects what holds of every URL that `objectUrl`,
`withQuery` and `withAuthority` build, and `splitUri_serialized` says that the
three parts can be read back from the serialised text, so that the text sent is
the parts that were signed.

Which texts are URIs, and which are authorities, is decided by the `http` crate;
both decisions are parameters (`UriGrammar`).  How it takes an accepted text
apart is modelled: a scheme, an authority up to the next delimiter, a path with
query up to a fragment; an authority is a host with an optional user and port.
-/
import S3Wire.Lib.Percent
import S3Wire.Operation.Multipart
import S3Wire.Signing.Canonical

namespace S3Wire

/-! ## URIs of the `http` crate -/

/-- The texts the `http` crate accepts. -/
structure UriGrammar where
  uri : Str → Bool
  authority : Str → Bool

/-- A parsed URI of the `http` crate, by its components. -/
structure Uri where
  scheme : Option Str
  authority : Option Str
  pathAndQuery : Str
  deriving DecidableEq

/-- The end of an authority. -/
def isAuthorityEnd (c : Char) : Bool := c == '/' || c == '?' || c == '#'

def isSchemeChar (c : Char) : Bool :=
  c.isAlphanum || c == '+' || c == '-' || c == '.'

/-- The standard schemes are recognised in either case. -/
def normalScheme (scheme : Str) : Str :=
  let lower := toAsciiLowercase scheme
  if lower = "http".toList ∨ lower = "https".toList then lower else scheme

/-- A text taken apart. -/
def splitUri (s : Str) : Uri :=
  let scheme := s.takeWhile isSchemeChar
  match (s.dropWhile isSchemeChar).dropPrefix? "://".toList with
  | some rest =>
      { scheme := some (normalScheme scheme)
        authority := some (rest.takeWhile fun c => !isAuthorityEnd c)
        pathAndQuery :=
          Lib.beforeFirst '#' (rest.dropWhile fun c => !isAuthorityEnd c) }
  | none => ⟨none, none, Lib.beforeFirst '#' s⟩

/-- The part before the query. -/
def pathOf (pathAndQuery : Str) : Str := Lib.beforeFirst '?' pathAndQuery

/-- The query, when there is one. -/
def queryOf (pathAndQuery : Str) : Option Str :=
  (Lib.splitOnce '?' pathAndQuery).map Prod.snd

/-- `Uri::path`: an absolute URI without a path has the root path. -/
def Uri.path (u : Uri) : Str :=
  let path := pathOf u.pathAndQuery
  if path.isEmpty && u.scheme.isSome then ['/'] else path

namespace Authority

/-- What follows the user information. -/
def hostPort (authority : Str) : Str := (authority.splitOn '@').getLastD []

/-- `Authority::host`. -/
def host (authority : Str) : Str :=
  let hostPort := hostPort authority
  if hostPort.head? = some '[' then hostPort.takeWhile (· != ']') ++ [']']
  else Lib.beforeFirst ':' hostPort

/-- `str::parse::<u16>`. -/
def parseU16 (s : Str) : Option Nat :=
  let digits := if s.head? = some '+' then s.tail else s
  if digits.isEmpty || !digits.all Char.isDigit then none
  else
    let n := digits.foldl (fun n c => 10 * n + (c.toNat - '0'.toNat)) 0
    if n < 65536 then some n else none

/-- `Authority::port_u16`: what follows the last colon, when it is a number. -/
def port (authority : Str) : Option Nat :=
  if ':' ∈ authority then parseU16 ((authority.splitOn ':').getLastD [])
  else none

end Authority

/-! ## Addresses -/

def isIpv4Octet (s : Str) : Bool :=
  !s.isEmpty && s.length ≤ 3 && s.all Char.isDigit &&
    (s.head? != some '0' || s.length == 1) &&
    s.foldl (fun n c => 10 * n + (c.toNat - '0'.toNat)) 0 ≤ 255

/-- Four octets and three dots. -/
def isIpv4 (s : Str) : Bool :=
  let octets := s.splitOn '.'
  octets.length == 4 && octets.all isIpv4Octet

def isHexGroup (s : Str) : Bool :=
  !s.isEmpty && s.length ≤ 4 && s.all fun c => (Lib.hexValue c).isSome

/-- The number of 16-bit groups a colon-separated list stands for.  The last one
may be an IPv4 address, which stands for two. -/
def ipv6Groups (allowIpv4 : Bool) (s : Str) : Option Nat :=
  if s.isEmpty then some 0
  else
    let groups := s.splitOn ':'
    if groups.all isHexGroup then some groups.length
    else if allowIpv4 && groups.dropLast.all isHexGroup &&
      isIpv4 (groups.getLastD []) then
      some (groups.length + 1)
    else none

/-- What stands before and after the first `::`. -/
def splitDoubleColon : Str → Option (Str × Str)
  | ':' :: ':' :: rest => some ([], rest)
  | c :: rest => (splitDoubleColon rest).map fun (a, b) => (c :: a, b)
  | [] => none

/-- The groups of an address, with at most one gap. -/
def isIpv6 (s : Str) : Bool :=
  match splitDoubleColon s with
  | none => ipv6Groups true s == some 8
  | some (head, tail) =>
      match ipv6Groups false head, ipv6Groups true tail with
      | some n, some m => n + m ≤ 7
      | _, _ => false

/-- `IpAddr::from_str(s).is_ok()`. -/
def isIpAddr (s : Str) : Bool := isIpv4 s || isIpv6 s

/-! ## Endpoint URLs -/

/-- Whether a bucket is named in the path or in the host. -/
inductive AddressingStyle where
  | path
  | virtualHosted
  deriving DecidableEq, Repr

/-- The public endpoints of a region. -/
inductive AwsEndpointVariant where
  | standard
  | dualStack
  | fips
  | fipsDualStack
  deriving DecidableEq, Repr

/-- A URL that requests go to, by its components and as one text. -/
structure EndpointUrl where
  serialized : Str
  scheme : Str
  authority : Str
  pathAndQuery : Str
  deriving DecidableEq

namespace EndpointUrl

variable (grammar : UriGrammar)

/-- A URL is made from its components. -/
def fromParts (scheme authority pathAndQuery : Str) :
    Except S3Error EndpointUrl :=
  let serialized := scheme ++ "://".toList ++ authority ++ pathAndQuery
  if grammar.uri serialized then
    .ok ⟨serialized, scheme, authority, pathAndQuery⟩
  else .error (S3Error.configuration "endpoint does not form a valid HTTP URI")

/-- The URL with this query and no other. -/
def withQuery (url : EndpointUrl) (query : Str) : Except S3Error EndpointUrl :=
  if query.head? = some '?' ∨ '#' ∈ query then
    .error (S3Error.configuration
      "request query must not include '?' or a fragment")
  else
    let path := pathOf url.pathAndQuery
    let pathAndQuery := if query.isEmpty then path else path ++ '?' :: query
    fromParts grammar url.scheme url.authority pathAndQuery

/-- The URL at another authority. -/
def withAuthority (url : EndpointUrl) (authority : Str) :
    Except S3Error EndpointUrl :=
  if !grammar.authority authority then
    .error (S3Error.configuration "redirect authority is invalid")
  else if '@' ∈ authority ∨ (Authority.host authority).isEmpty then
    .error (S3Error.configuration "redirect authority is invalid")
  else fromParts grammar url.scheme authority url.pathAndQuery

end EndpointUrl

/-! ## Endpoints -/

/-- The endpoint of a service: its URL, and the path that comes before the
bucket. -/
structure Endpoint where
  url : EndpointUrl
  basePath : Str
  deriving DecidableEq

/-- A key in a path: its slashes stay. -/
def encodeObjectKey (bytes : Bytes) : Str :=
  Lib.percentEncode isUnreservedOrSlash bytes

def encodePathComponent (bytes : Bytes) : Str :=
  Lib.percentEncode isUnreserved bytes

def isRegionChar (c : Char) : Bool := c.isAlphanum || c == '-'

/-- A region that fits a host name: 1 to 64 letters, digits and hyphens. -/
def isRegion (region : Str) : Bool :=
  !region.isEmpty && region.len ≤ 64 && region.all isRegionChar

/-- The region becomes a label of a host. -/
def validateRegion (region : Str) : Except S3Error Unit :=
  if isRegion region then .ok ()
  else .error (S3Error.configuration "AWS region is invalid")

/-- What a bucket must be to be a segment of a path. -/
def validateBucketForPath (bucket : Str) : Except S3Error Unit :=
  if bucket.isEmpty || bucket.len > 255 ||
      bucket.any
        (fun c => c == '/' || c == '\\' || c.toNat < 32 || c.toNat == 127) then
    .error (S3Error.configuration "bucket name is invalid")
  else .ok ()

def isBucketChar (c : Char) : Bool :=
  c.isLower || c.isDigit || c == '-' || c == '.'

def containsDoubleDot : Str → Bool
  | '.' :: '.' :: _ => true
  | _ :: rest => containsDoubleDot rest
  | [] => false

def isDashOrDot (c : Char) : Bool := c == '-' || c == '.'

/-- What a bucket must be to be a label of a host. -/
def validateVirtualHostBucket (bucket : Str) : Except S3Error Unit :=
  if !(3 ≤ bucket.len && bucket.len ≤ 63) || bucket.head?.any isDashOrDot ||
      bucket.getLast?.any isDashOrDot || containsDoubleDot bucket ||
        !bucket.all isBucketChar ||
      isIpAddr bucket then
    .error (S3Error.configuration
      "bucket is not valid for virtual-hosted addressing")
  else .ok ()

/-- `str::trim_matches(['[', ']'])`. -/
def trimBrackets (s : Str) : Str :=
  let isBracket := fun c => c == '[' || c == ']'
  ((s.dropWhile isBracket).reverse.dropWhile isBracket).reverse

namespace Endpoint

variable (grammar : UriGrammar)

/-- The last part of `new`: the base path gets its slash, and the URL is put
together. -/
def withBasePath (scheme authority path : Str) : Except S3Error Endpoint :=
  let basePath := if path.isEmpty then ['/'] else path
  if basePath.head? ≠ some '/' then
    .error (S3Error.configuration "endpoint path must be absolute")
  else
    let basePath := if basePath.getLast? = some '/' then basePath
      else basePath ++ ['/']
    match EndpointUrl.fromParts grammar scheme authority basePath with
    | .error e => .error e
    | .ok url => .ok ⟨url, basePath⟩

/-- `Endpoint::new`: each refusal with its own message. -/
def new (input : Str) : Except S3Error Endpoint :=
  if '#' ∈ input then
    .error (S3Error.configuration
      "endpoint must not contain a query string or fragment")
  else if !grammar.uri input then
    .error (S3Error.configuration "endpoint must be a valid absolute URL")
  else
    let uri := splitUri input
    match uri.scheme with
    | none => .error (S3Error.configuration "endpoint must include a scheme")
    | some scheme =>
        if scheme ≠ "https".toList ∧ scheme ≠ "http".toList then
          .error (S3Error.configuration
            "endpoint scheme must be HTTPS or explicitly enabled HTTP")
        else
          match uri.authority with
          | none =>
              .error (S3Error.configuration "endpoint must include a host")
          | some authority =>
              if '@' ∈ authority then
                .error (S3Error.configuration
                  "endpoint must not contain user information")
              else if (Authority.host authority).isEmpty then
                .error (S3Error.configuration "endpoint must include a host")
              else if (queryOf uri.pathAndQuery).isSome then
                .error (S3Error.configuration
                  "endpoint must not contain a query string or fragment")
              else withBasePath grammar scheme authority uri.path

def isHttps (e : Endpoint) : Bool := e.url.scheme == "https".toList

/-- The service part of an AWS host name. -/
def variantPrefix : AwsEndpointVariant → Str
  | .standard => "s3"
  | .dualStack => "s3.dualstack"
  | .fips => "s3-fips"
  | .fipsDualStack => "s3-fips.dualstack"

def chinaSuffix : Str := "amazonaws.com.cn"

def globalSuffix : Str := "amazonaws.com"

/-- `region.starts_with("cn-")`. -/
def isChina (region : Str) : Bool := "cn-".toList.isPrefixOf region

/-- The domain that a region is under. -/
def regionSuffix (region : Str) : Str :=
  if isChina region then chinaSuffix else globalSuffix

/-- The service, the region and the partition of an AWS host name. -/
def awsHost (service region suffix : Str) : Str :=
  service ++ '.' :: (region ++ '.' :: suffix)

/-- The public endpoint of a region. -/
def forAwsRegionVariant (region : Str) (variant : AwsEndpointVariant) :
    Except S3Error Endpoint :=
  match validateRegion region with
  | .error e => .error e
  | .ok () =>
      new grammar
        ("https://".toList ++ awsHost (variantPrefix variant) region
          (regionSuffix region))

/-- The authority of `object_url`. -/
def objectAuthority (e : Endpoint) (bucket : Str) : AddressingStyle →
    Except S3Error Str
  | .path => .ok e.url.authority
  | .virtualHosted =>
      match validateVirtualHostBucket bucket with
      | .error e => .error e
      | .ok () =>
          if !grammar.authority e.url.authority then
            .error (S3Error.configuration "endpoint authority is invalid")
          else
            let host := Authority.host e.url.authority
            if isIpAddr (trimBrackets host) then
              .error (S3Error.configuration
                "virtual-hosted addressing cannot be used with an IP endpoint")
            else
              match Authority.port e.url.authority with
              | none => .ok (bucket ++ '.' :: host)
              | some port =>
                  .ok (bucket ++ '.' :: (host ++ ':' :: decimal port))

/-- The path of `object_url`. -/
def objectPath (e : Endpoint) (bucket : Str) (objectKey : Option Str)
    (style : AddressingStyle) : Str :=
  let path :=
    match style with
    | .path => e.basePath ++ encodePathComponent (Lib.utf8 bucket)
    | .virtualHosted => e.basePath
  match objectKey with
  | some key =>
      let path := if style = .path ∧ path.getLast? ≠ some '/' then path ++ ['/']
        else path
      path ++ encodeObjectKey (Lib.utf8 key)
  | none =>
      if style = .virtualHosted ∧ path.length > 1 then path.dropLast else path

/-- The URL of an object, or of a bucket, in one of the two styles. -/
def objectUrl (e : Endpoint) (bucket : Str) (objectKey : Option Str)
    (style : AddressingStyle) :
    Except S3Error EndpointUrl :=
  match validateBucketForPath bucket with
  | .error e => .error e
  | .ok () =>
      match e.objectAuthority grammar bucket style with
      | .error e => .error e
      | .ok authority =>
          EndpointUrl.fromParts grammar e.url.scheme authority
            (e.objectPath bucket objectKey style)

end Endpoint

/-! ## Targets

What every URL of a request satisfies, however it was built: each part keeps out
of the next one's delimiters, so the serialised text is taken apart where it was
put together. -/

/-- The components of a URL are its components: the text of it divides in one
way. -/
structure EndpointUrl.Target (url : EndpointUrl) : Prop where
  serialized : url.serialized = url.scheme ++ "://".toList ++ url.authority ++
    url.pathAndQuery
  scheme : url.scheme = "http".toList ∨ url.scheme = "https".toList
  authority : ∀ c ∈ url.authority, isAuthorityEnd c = false
  rooted : url.pathAndQuery.head? = some '/'
  fragment : '#' ∉ url.pathAndQuery

section Target

variable {grammar : UriGrammar} {url url' : EndpointUrl} {e : Endpoint}

theorem splitUri_http {scheme rest : Str}
    (h : scheme = "http".toList ∨ scheme = "https".toList) :
    splitUri (scheme ++ "://".toList ++ rest) =
      ⟨some scheme, some (rest.takeWhile fun c => !isAuthorityEnd c),
        Lib.beforeFirst '#' (rest.dropWhile fun c => !isAuthorityEnd c)⟩ := by
  have hchars : ∀ c ∈ scheme, isSchemeChar c = true := by
    have hall : scheme.all isSchemeChar = true := by
      rcases h with rfl | rfl <;> decide
    exact List.all_eq_true.mp hall
  have hnormal : normalScheme scheme = scheme := by
    rcases h with rfl | rfl <;> decide
  have hcolon : isSchemeChar ':' = false := by decide
  have hdelimiter : "://".toList = ':' :: '/' :: '/' :: [] := by decide
  have htake : (scheme ++ "://".toList ++ rest).takeWhile isSchemeChar =
      scheme := by
    rw [List.append_assoc, List.takeWhile_append_of_pos hchars, hdelimiter]
    simp [hcolon]
  have hdrop : (scheme ++ "://".toList ++ rest).dropWhile isSchemeChar =
      "://".toList ++ rest := by
    rw [List.append_assoc, List.dropWhile_append_of_pos hchars, hdelimiter]
    simp [hcolon]
  unfold splitUri
  rw [htake, hdrop, List.dropPrefix?_append_of_beq rest (BEq.rfl)]
  simp only [hnormal]

/-- **The parts of a target are read back from its text.** -/
theorem splitUri_serialized (h : url.Target) :
    splitUri url.serialized =
      ⟨some url.scheme, some url.authority, url.pathAndQuery⟩ := by
  obtain ⟨path, hpath⟩ : ∃ path, url.pathAndQuery = '/' :: path :=
    List.head?_eq_some_iff.mp h.rooted
  have hauthority : ∀ c ∈ url.authority, (!isAuthorityEnd c) = true :=
    fun c hc => by
    rw [h.authority c hc]
    rfl
  have htake :
      (url.authority ++ url.pathAndQuery).takeWhile
          (fun c => !isAuthorityEnd c) = url.authority := by
    rw [List.takeWhile_append_of_pos hauthority, hpath]
    simp [isAuthorityEnd]
  have hdrop :
      (url.authority ++ url.pathAndQuery).dropWhile
        (fun c => !isAuthorityEnd c) =
      url.pathAndQuery := by
    rw [List.dropWhile_append_of_pos hauthority, hpath]
    simp [isAuthorityEnd]
  rw [h.serialized, List.append_assoc, splitUri_http h.scheme, htake, hdrop,
    Lib.beforeFirst_of_not_mem h.fragment]

theorem EndpointUrl.fromParts_eq {scheme authority pathAndQuery : Str}
    (h : fromParts grammar scheme authority pathAndQuery = .ok url) :
    url = ⟨scheme ++ "://".toList ++ authority ++ pathAndQuery, scheme,
      authority, pathAndQuery⟩ ∧
      grammar.uri url.serialized = true := by
  unfold fromParts at h
  simp only at h
  split at h
  · next hgrammar =>
      cases h
      exact ⟨rfl, hgrammar⟩
  · cases h

theorem EndpointUrl.withQuery_eq {query : Str}
    (h : url.withQuery grammar query = .ok url') :
    '#' ∉ query ∧ fromParts grammar url.scheme url.authority
      (if query.isEmpty then pathOf url.pathAndQuery
        else pathOf url.pathAndQuery ++ '?' :: query) =
        .ok url' := by
  unfold withQuery at h
  split at h
  · cases h
  · next hquery => exact ⟨fun hmem => hquery (Or.inr hmem), h⟩

theorem pathOf_rooted {pathAndQuery : Str} (h : pathAndQuery.head? = some '/') :
    (pathOf pathAndQuery).head? = some '/' := by
  obtain ⟨path, rfl⟩ := List.head?_eq_some_iff.mp h
  simp only [pathOf, Lib.beforeFirst, Lib.splitOnce, Char.reduceEq, if_false]
  cases Lib.splitOnce '?' path with
  | none => rfl
  | some pair => rfl

theorem pathOf_subset (pathAndQuery : Str) :
    pathOf pathAndQuery ⊆ pathAndQuery := by
  intro c hc
  unfold pathOf Lib.beforeFirst at hc
  split at hc
  · next p q hsplit =>
      rw [(Lib.splitOnce_eq_some hsplit).1]
      exact List.mem_append_left _ hc
  · exact hc

theorem EndpointUrl.Target.withQuery {query : Str} (ht : url.Target)
    (h : url.withQuery grammar query = .ok url') : url'.Target := by
  obtain ⟨hfragment, hparts⟩ := EndpointUrl.withQuery_eq h
  obtain ⟨rfl, -⟩ := EndpointUrl.fromParts_eq hparts
  have hrooted := pathOf_rooted ht.rooted
  have hpath : '#' ∉ pathOf url.pathAndQuery :=
    fun hmem => ht.fragment (pathOf_subset _ hmem)
  refine ⟨rfl, ht.scheme, ht.authority, ?_, ?_⟩
  · show (if query.isEmpty then _ else _ : Str).head? = _
    split
    · exact hrooted
    · rw [List.head?_append, hrooted]
      rfl
  · show '#' ∉ (if query.isEmpty then _ else _ : Str)
    split
    · exact hpath
    · simp [hpath, hfragment]

theorem EndpointUrl.withAuthority_eq {authority : Str}
    (h : url.withAuthority grammar authority = .ok url') :
    fromParts grammar url.scheme authority url.pathAndQuery = .ok url' := by
  unfold withAuthority at h
  split at h
  · cases h
  · split at h
    · cases h
    · exact h

theorem EndpointUrl.Target.withAuthority {authority : Str} (ht : url.Target)
    (hauthority : ∀ c ∈ authority, isAuthorityEnd c = false)
    (h : url.withAuthority grammar authority = .ok url') : url'.Target := by
  obtain ⟨rfl, -⟩ := EndpointUrl.fromParts_eq (EndpointUrl.withAuthority_eq h)
  exact ⟨rfl, ht.scheme, hauthority, ht.rooted, ht.fragment⟩

end Target

/-! ## Endpoints give targets -/

/-- What `new` establishes. -/
structure Endpoint.Valid (e : Endpoint) : Prop where
  target : e.url.Target
  basePath : e.url.pathAndQuery = e.basePath
  plain : '?' ∉ e.basePath
  user : '@' ∉ e.url.authority

section Endpoints

variable {grammar : UriGrammar} {url : EndpointUrl} {e : Endpoint}
  {bucket : Str}
  {objectKey : Option Str} {style : AddressingStyle}

theorem Endpoint.withBasePath_valid {scheme authority path : Str}
    (hscheme : scheme = "http".toList ∨ scheme = "https".toList)
    (hauthority : ∀ c ∈ authority, isAuthorityEnd c = false)
    (huser : '@' ∉ authority) (hfragment : '#' ∉ path) (hquery : '?' ∉ path)
    (h : withBasePath grammar scheme authority path = .ok e) : e.Valid := by
  unfold withBasePath at h
  simp only at h
  have hmem : ∀ c ∉ path, c ≠ '/' → c ∉ if path.isEmpty then
      ['/'] else path := by
    intro c hpath hslash
    split
    · simpa using hslash
    · exact hpath
  revert h hmem
  generalize (if path.isEmpty then ['/'] else path) = base
  intro h hmem
  split at h
  · cases h
  next hrooted =>
  simp only [ne_eq, Decidable.not_not] at hrooted
  split at h
  · cases h
  next url hurl =>
  cases h
  obtain ⟨rfl, -⟩ := EndpointUrl.fromParts_eq hurl
  have hclosed : ∀ c ∉ path, c ≠ '/' → c ∉ if base.getLast? = some '/' then
      base else base ++ ['/'] := by
    intro c hpath hslash
    split
    · exact hmem c hpath hslash
    · simp [hmem c hpath hslash, hslash]
  refine ⟨⟨rfl, hscheme, hauthority, ?_, hclosed '#' hfragment (by decide)⟩,
    rfl,
    hclosed '?' hquery (by decide), huser⟩
  show (if _ then _ else _ : Str).head? = _
  split
  · exact hrooted
  · rw [List.head?_append, hrooted]
    rfl

theorem Endpoint.new_valid {input : Str} (h : new grammar input = .ok e) :
    e.Valid := by
  unfold new at h
  simp only at h
  split at h
  · cases h
  split at h
  · cases h
  split at h
  · cases h
  next scheme hscheme =>
  split at h
  · cases h
  next hknown =>
  split at h
  · cases h
  next authority hauthority =>
  split at h
  · cases h
  next huser =>
  split at h
  · cases h
  split at h
  · cases h
  next hquery =>
  -- the text had a scheme, so its parts end at the delimiters
  have hparts : (∀ c ∈ authority, isAuthorityEnd c = false) ∧
      '#' ∉ (splitUri input).pathAndQuery := by
    unfold splitUri at hauthority ⊢
    simp only at hauthority ⊢
    split at hauthority
    · next rest hrest =>
        simp only [Option.some.injEq] at hauthority
        subst hauthority
        refine ⟨fun c hc => ?_, Lib.not_mem_beforeFirst _ _⟩
        simpa using List.mem_takeWhile_imp hc
    · cases hauthority
  refine withBasePath_valid ?_ hparts.1 huser ?_ ?_ h
  · by_contra hne
    rw [not_or] at hne
    exact hknown ⟨hne.2, hne.1⟩
  · unfold Uri.path
    simp only
    split
    · decide
    · exact fun hmem => hparts.2 (pathOf_subset _ hmem)
  · unfold Uri.path
    simp only
    split
    · decide
    · exact Lib.not_mem_beforeFirst _ _

theorem Endpoint.withBasePath_eq {scheme authority path : Str}
    (h : withBasePath grammar scheme authority path = .ok e) :
    e.basePath.getLast? = some '/' ∧
    EndpointUrl.fromParts grammar scheme authority e.basePath = .ok e.url := by
  unfold withBasePath at h
  simp only at h
  revert h
  generalize (if path.isEmpty then ['/'] else path) = base
  intro h
  split at h
  · cases h
  · split at h
    · cases h
    · next url hurl =>
        cases h
        refine ⟨?_, hurl⟩
        show (if _ then _ else _ : Str).getLast? = _
        split
        · assumption
        · rw [List.getLast?_concat]

/-- What an endpoint is put together of: an authority with a host, and a base
path that ends in a slash. -/
theorem Endpoint.new_eq {input : Str} (h : new grammar input = .ok e) :
    ∃ scheme authority, Authority.host authority ≠ [] ∧
    e.basePath.getLast? = some '/' ∧
      EndpointUrl.fromParts grammar scheme authority e.basePath =
        .ok e.url := by
  unfold new at h
  simp only at h
  split at h
  · cases h
  split at h
  · cases h
  split at h
  · cases h
  next scheme _ =>
  split at h
  · cases h
  split at h
  · cases h
  next authority _ =>
  split at h
  · cases h
  split at h
  · cases h
  next hhost =>
  split at h
  · cases h
  exact ⟨scheme, authority, by simpa using hhost, withBasePath_eq h⟩

theorem Endpoint.new_closed {input : Str} (h : new grammar input = .ok e) :
    e.basePath.getLast? = some '/' := by
  obtain ⟨_, _, -, hclosed, -⟩ := new_eq h
  exact hclosed

theorem Endpoint.new_authority {input : Str} (h : new grammar input = .ok e) :
    e.url.authority ≠ [] := by
  obtain ⟨scheme, authority, hhost, -, hparts⟩ := new_eq h
  obtain ⟨hurl, -⟩ := EndpointUrl.fromParts_eq hparts
  rw [hurl]
  rintro rfl
  exact hhost rfl

theorem isPathChar_percentEncode {safe : UInt8 → Bool}
    (hsafe : ∀ b, safe b = true → isUnreservedOrSlash b = true)
    {bytes : Bytes} :
    ∀ c ∈ Lib.percentEncode safe bytes, isPathChar c = true := by
  intro c hc
  rcases Lib.mem_percentEncode hc with ⟨b, hb, rfl⟩ | rfl | h
  · exact isPathChar_of_charOf
      (isCharOf_ofNat unreservedOrSlash_safe (hsafe b hb))
  · rfl
  · simp [isPathChar, isEncodedChar_upperHex c h]

theorem isPathChar_encodeObjectKey {bytes : Bytes} :
    ∀ c ∈ encodeObjectKey bytes, isPathChar c = true :=
  isPathChar_percentEncode fun _ h => h

theorem isPathChar_encodePathComponent {bytes : Bytes} :
    ∀ c ∈ encodePathComponent bytes, isPathChar c = true :=
  isPathChar_percentEncode fun b h => by simp [isUnreservedOrSlash, h]

/-- A path of `object_url` adds nothing but path characters to the base path. -/
theorem Endpoint.mem_objectPath {c : Char} (hc : isPathChar c = false)
    (hbase : c ∉ e.basePath) :
    c ∉ e.objectPath bucket objectKey style := by
  have hslash : c ≠ '/' := by
    rintro rfl
    cases hc
  have hencoded : ∀ {text : Str}, (∀ c ∈ text, isPathChar c = true) →
      c ∉ text := fun htext hmem => by
    rw [htext c hmem] at hc
    cases hc
  have hkey : ∀ {bytes}, c ∉ encodeObjectKey bytes :=
    hencoded isPathChar_encodeObjectKey
  have hbucket : ∀ {bytes}, c ∉ encodePathComponent bytes :=
    hencoded isPathChar_encodePathComponent
  unfold objectPath
  cases style with
  | path =>
      cases objectKey with
      | none => simp [hbase, hbucket]
      | some key =>
          simp only [true_and]
          split <;> simp [hbase, hbucket, hkey, hslash]
  | virtualHosted =>
      cases objectKey with
      | none =>
          simp only [true_and]
          split
          · exact fun hmem => hbase (List.dropLast_subset _ hmem)
          · exact hbase
      | some key => simp [hbase, hkey]

theorem Endpoint.objectPath_rooted (hbase : e.basePath.head? = some '/') :
    (e.objectPath bucket objectKey style).head? = some '/' := by
  obtain ⟨rest, hrest⟩ := List.head?_eq_some_iff.mp hbase
  unfold objectPath
  cases style with
  | path =>
      cases objectKey with
      | none => simp [hrest]
      | some key =>
          simp only [true_and]
          split <;> simp [hrest]
  | virtualHosted =>
      cases objectKey with
      | none =>
          simp only [true_and]
          split
          · next hlong =>
              rw [hrest] at hlong ⊢
              cases rest with
              | nil => simp at hlong
              | cons c rest => rfl
          · exact hbase
      | some key => simp [hrest]

theorem validateVirtualHostBucket_chars
    (h : validateVirtualHostBucket bucket = .ok ()) :
    ∀ c ∈ bucket, isBucketChar c = true := by
  unfold validateVirtualHostBucket at h
  split at h
  · cases h
  · next hvalid =>
      simp only [Bool.or_eq_true, not_or, Bool.not_eq_true', Bool.not_eq_false]
        at hvalid
      exact List.all_eq_true.mp hvalid.1.2

theorem isAuthorityEnd_of_isBucketChar {c : Char} (h : isBucketChar c = true) :
    isAuthorityEnd c = false := by
  unfold isAuthorityEnd
  simp only [Bool.or_eq_false_iff, beq_eq_false_iff_ne, ne_eq]
  refine ⟨⟨?_, ?_⟩, ?_⟩
  all_goals
    rintro rfl
    cases h

theorem Authority.hostPort_eq {authority : Str} (h : '@' ∉ authority) :
    hostPort authority = authority := by
  simp [hostPort, List.splitOn_eq_singleton h]

theorem Authority.host_chars {authority : Str} (huser : '@' ∉ authority)
    (h : ∀ c ∈ authority, isAuthorityEnd c = false) :
    ∀ c ∈ host authority, isAuthorityEnd c = false := by
  intro c hc
  unfold host at hc
  rw [hostPort_eq huser] at hc
  simp only at hc
  split at hc
  · rcases List.mem_append.mp hc with hc | hc
    · exact h c ((List.takeWhile_sublist _).subset hc)
    · rw [List.mem_singleton.mp hc]
      decide
  · refine h c ?_
    unfold Lib.beforeFirst at hc
    split at hc
    · next p q hsplit =>
        rw [(Lib.splitOnce_eq_some hsplit).1]
        exact List.mem_append_left _ hc
    · exact hc

theorem isDigit_decimal {n : Nat} {c : Char} (h : c ∈ decimal n) :
    c.isDigit = true :=
  Nat.isDigit_of_mem_toDigits (by decide) (by decide) h

theorem Endpoint.objectAuthority_chars {authority : Str} (he : e.Valid)
    (h : e.objectAuthority grammar bucket style = .ok authority) :
    ∀ c ∈ authority, isAuthorityEnd c = false := by
  cases style with
  | path =>
      cases h
      exact he.target.authority
  | virtualHosted =>
      unfold objectAuthority at h
      simp only at h
      split at h
      · cases h
      next hbucket =>
      split at h
      · cases h
      split at h
      · cases h
      have hhost := Authority.host_chars he.user he.target.authority
      have hbucket : ∀ c ∈ bucket, isAuthorityEnd c = false := fun c hc =>
        isAuthorityEnd_of_isBucketChar
          (validateVirtualHostBucket_chars hbucket c hc)
      split at h
      · cases h
        intro c hc
        rcases List.mem_append.mp hc with hc | hc
        · exact hbucket c hc
        · rcases List.mem_cons.mp hc with rfl | hc
          · decide
          · exact hhost c hc
      · next port _ =>
          cases h
          have hport : ∀ c ∈ decimal port, isAuthorityEnd c = false :=
            fun c hc =>
            isAuthorityEnd_of_isBucketChar
              (by simp [isBucketChar, isDigit_decimal hc])
          intro c hc
          simp only [List.mem_append, List.mem_cons] at hc
          rcases hc with hc | rfl | hc | rfl | hc
          · exact hbucket c hc
          · decide
          · exact hhost c hc
          · decide
          · exact hport c hc

theorem Endpoint.objectUrl_eq
    (h : e.objectUrl grammar bucket objectKey style = .ok url) :
    ∃ authority, e.objectAuthority grammar bucket style = .ok authority ∧
      EndpointUrl.fromParts grammar e.url.scheme authority
        (e.objectPath bucket objectKey style) =
        .ok url := by
  unfold objectUrl at h
  split at h
  · cases h
  · split at h
    · cases h
    · next authority hauthority => exact ⟨authority, hauthority, h⟩

/-- **Every URL of a valid endpoint is a target**, with a path that holds no
query. -/
theorem Endpoint.objectUrl_target (he : e.Valid)
    (h : e.objectUrl grammar bucket objectKey style = .ok url) : url.Target ∧
    '?' ∉ url.pathAndQuery := by
  obtain ⟨authority, hauthority, hparts⟩ := objectUrl_eq h
  obtain ⟨rfl, -⟩ := EndpointUrl.fromParts_eq hparts
  have hrooted : e.basePath.head? = some '/' := he.basePath ▸ he.target.rooted
  have hfragment : '#' ∉ e.basePath := he.basePath ▸ he.target.fragment
  exact ⟨⟨rfl, he.target.scheme, objectAuthority_chars he hauthority,
    objectPath_rooted hrooted,
    mem_objectPath (by decide) hfragment⟩, mem_objectPath (by decide) he.plain⟩

end Endpoints

/-! ## Regional hosts of AWS -/

/-- A character of a host name. -/
def isHostChar (c : Char) : Bool := c.isAlphanum || c == '-' || c == '.'

section Aws

variable {grammar : UriGrammar} {e : Endpoint} {region : Str}
  {variant : AwsEndpointVariant}

theorem hostChar_ne {c d : Char} (hc : isHostChar c = true)
    (hd : isHostChar d = false) : c ≠ d := by
  rintro rfl
  rw [hc] at hd
  cases hd

theorem isRegion_chars (h : isRegion region = true) :
    ∀ c ∈ region, isHostChar c = true := by
  intro c hc
  simp only [isRegion, Bool.and_eq_true, List.all_eq_true] at h
  have hchar := h.2 c hc
  unfold isRegionChar at hchar
  simp [isHostChar, hchar]

theorem variantPrefix_chars (variant : AwsEndpointVariant) :
    ∀ c ∈ Endpoint.variantPrefix variant, isHostChar c = true := by
  have hall : (Endpoint.variantPrefix variant).all isHostChar = true := by
    cases variant <;> decide
  exact List.all_eq_true.mp hall

theorem suffix_chars {suffix : Str}
    (h : suffix = Endpoint.chinaSuffix ∨ suffix = Endpoint.globalSuffix) :
    ∀ c ∈ suffix, isHostChar c = true := by
  have hall : suffix.all isHostChar = true := by
    rcases h with rfl | rfl <;> decide
  exact List.all_eq_true.mp hall

theorem regionSuffix_cases (region : Str) :
    Endpoint.regionSuffix region = Endpoint.chinaSuffix ∨
      Endpoint.regionSuffix region = Endpoint.globalSuffix := by
  unfold Endpoint.regionSuffix
  split
  · exact Or.inl rfl
  · exact Or.inr rfl

theorem awsHost_chars {suffix : Str} (hregion : isRegion region = true)
    (hsuffix : suffix = Endpoint.chinaSuffix ∨ suffix = Endpoint.globalSuffix) :
    ∀ c ∈ Endpoint.awsHost (Endpoint.variantPrefix variant) region suffix,
      isHostChar c = true := by
  simp only [Endpoint.awsHost, List.mem_append, List.mem_cons]
  rintro c (hc | rfl | hc | rfl | hc)
  · exact variantPrefix_chars variant c hc
  · decide
  · exact isRegion_chars hregion c hc
  · decide
  · exact suffix_chars hsuffix c hc

section HostName

variable {host : Str}

theorem Authority.host_eq (hchars : ∀ c ∈ host, isHostChar c = true) :
    Authority.host host = host := by
  have huser : '@' ∉ host :=
    fun hmem => hostChar_ne (hchars _ hmem) (by decide) rfl
  have hcolon : ':' ∉ host :=
    fun hmem => hostChar_ne (hchars _ hmem) (by decide) rfl
  unfold Authority.host
  rw [hostPort_eq huser, if_neg, Lib.beforeFirst_of_not_mem hcolon]
  intro hhead
  exact hostChar_ne (hchars _ (List.mem_of_mem_head? hhead)) (by decide) rfl

theorem Authority.port_eq_none (hchars : ∀ c ∈ host, isHostChar c = true) :
    Authority.port host = none :=
  if_neg fun hmem => hostChar_ne (hchars _ hmem) (by decide) rfl

/-- The endpoint at a host, with nothing but the host. -/
def Endpoint.atHost (host : Str) : Endpoint :=
  ⟨⟨"https://".toList ++ host ++ ['/'], "https", host, ['/']⟩, ['/']⟩

theorem Endpoint.new_host (hchars : ∀ c ∈ host, isHostChar c = true)
    (hne : host ≠ []) :
    new grammar ("https://".toList ++ host) =
      if !grammar.uri ("https://".toList ++ host) then
        .error (S3Error.configuration "endpoint must be a valid absolute URL")
      else if grammar.uri ("https://".toList ++ host ++ ['/']) then
        .ok (atHost host)
      else .error
        (S3Error.configuration "endpoint does not form a valid HTTP URI") := by
  have hfragment : '#' ∉ "https://".toList ++ host := by
    intro hmem
    rcases List.mem_append.mp hmem with hmem | hmem
    · revert hmem
      decide
    · exact hostChar_ne (hchars _ hmem) (by decide) rfl
  have huser : '@' ∉ host :=
    fun hmem => hostChar_ne (hchars _ hmem) (by decide) rfl
  have hend : ∀ c ∈ host, (!isAuthorityEnd c) = true := by
    intro c hc
    have hslash := hostChar_ne (hchars c hc) (d := '/') (by decide)
    have hquestion := hostChar_ne (hchars c hc) (d := '?') (by decide)
    have hhash := hostChar_ne (hchars c hc) (d := '#') (by decide)
    simp [isAuthorityEnd, hslash, hquestion, hhash]
  have hsplit :
      splitUri ("https://".toList ++ host) =
          ⟨some "https".toList, some host, []⟩ := by
    have hhttp := @splitUri_http "https".toList host (Or.inr rfl)
    have htake : host.takeWhile (fun c => !isAuthorityEnd c) = host :=
      List.takeWhile_eq_self_iff.mpr hend
    have hdrop : host.dropWhile (fun c => !isAuthorityEnd c) = [] :=
      List.dropWhile_eq_nil_iff.mpr hend
    rw [htake, hdrop] at hhttp
    exact hhttp
  have hpath : Uri.path ⟨some "https".toList, some host, []⟩ = ['/'] := rfl
  unfold new
  rw [if_neg hfragment, hsplit]
  split
  · rfl
  simp only [hpath]
  rw [if_neg (by decide), if_neg huser,
    if_neg (by simp [Authority.host_eq hchars, hne]),
    if_neg (by decide)]
  have hparts : EndpointUrl.fromParts grammar "https".toList host ['/'] =
      if grammar.uri ("https://".toList ++ host ++ ['/']) then
        .ok ⟨"https://".toList ++ host ++ ['/'], "https".toList, host, ['/']⟩
      else .error
        (S3Error.configuration "endpoint does not form a valid HTTP URI") := rfl
  unfold withBasePath
  simp only [List.isEmpty_cons, Bool.false_eq_true, if_false, List.head?_cons,
    ne_eq,
    not_true_eq_false, List.getLast?_singleton, if_true, hparts]
  cases grammar.uri ("https://".toList ++ host ++ ['/']) <;> rfl

end HostName

theorem Endpoint.forAwsRegionVariant_eq
    (h : forAwsRegionVariant grammar region variant = .ok e) :
    isRegion region = true ∧
    e = atHost
      (awsHost (variantPrefix variant) region (regionSuffix region)) := by
  unfold forAwsRegionVariant validateRegion at h
  by_cases hregion : isRegion region = true
  · have hchars :=
      @awsHost_chars region variant _ hregion (regionSuffix_cases region)
    have hne : awsHost (variantPrefix variant) region (regionSuffix region) ≠
        [] := by
      simp [awsHost]
    rw [if_pos hregion] at h
    simp only [new_host hchars hne] at h
    split at h
    · cases h
    · split at h
      · cases h
        exact ⟨hregion, rfl⟩
      · cases h
  · rw [if_neg hregion] at h
    cases h

end Aws

end S3Wire
