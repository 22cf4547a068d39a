/-
# `S3Wire.Client.Tampered` — what else a presigned URL is good for: nothing

A bearer may take a presigned URL apart and send whatever they like: another
method, another spelling of the path, the parameters in another order or with
others among them, any headers. `presigned_grants_only`: if a service grants
such a request on the signature of the URL, then either the request exhibits a
second text with that signature, or it has the method of the URL and its host,
and the service reads it as the action of the URL or not at all.

Nothing is assumed of the keyed hash: what it does not exclude is the
conclusion.  The text that was signed fixes the path up to the letter case of
its escapes, which a service decodes alike (`readResource_canonical`).
-/
import S3Wire.Client.Grant
import S3Wire.Client.Construction

namespace S3Wire

open PrimitiveOperation (unkeyedClient)

/-! ## Paths with one canonical form -/

section Path

theorem canonicalPath_triplet {high low : Char} {hi lo : Nat} {tail next : Str}
    (hhigh : Lib.hexValue high = some hi) (hlow : Lib.hexValue low = some lo)
    (h : canonicalPath tail = .ok next) :
    canonicalPath ('%' :: high :: low :: tail) =
      .ok ('%' :: Lib.hexDigit hi :: Lib.hexDigit lo :: next) := by
  rw [canonicalPath.eq_def]
  simp only [if_true, hhigh, hlow, h]
  rfl

/-- How a character that begins no escape is written. -/
def pathText (c : Char) : Str :=
  if isCharOf isUnreservedOrSlash c then [c] else awsUriEncode [c] true

theorem canonicalPath_char {c : Char} {rest next : Str} (hc : c ≠ '%')
    (h : canonicalPath rest = .ok next) :
    canonicalPath (c :: rest) = .ok (pathText c ++ next) := by
  rw [canonicalPath.eq_def, pathText]
  simp only [if_neg hc, h]
  split <;> rfl

theorem canonicalPath_first {c : Char} {rest canonical : Str}
    (h : canonicalPath (c :: rest) = .ok canonical) :
    (∃ high low tail hi lo next, c = '%' ∧ rest = high :: low :: tail ∧
      Lib.hexValue high = some hi ∧
      Lib.hexValue low = some lo ∧ canonicalPath tail = .ok next ∧
      canonical = '%' :: Lib.hexDigit hi :: Lib.hexDigit lo :: next) ∨
    (c ≠ '%' ∧ ∃ next, canonicalPath rest = .ok next ∧
      canonical = pathText c ++ next) := by
  rcases canonicalPath_cons h with hescape | ⟨hc, -, next, hnext, -⟩ |
    ⟨hc, next, hnext, -⟩
  · exact Or.inl hescape
  · exact Or.inr
      ⟨hc, next, hnext,
        Except.ok.inj (h.symm.trans (canonicalPath_char hc hnext))⟩
  · exact Or.inr
      ⟨hc, next, hnext,
        Except.ok.inj (h.symm.trans (canonicalPath_char hc hnext))⟩

theorem canonicalPath_split : ∀ {left right canonical : Str},
    canonicalPath (left ++ '/' :: right) = .ok canonical →
    ∃ before after, canonicalPath left = .ok before ∧
    canonicalPath right = .ok after ∧
      canonical = before ++ '/' :: after
  | [], right, canonical, h => by
      obtain ⟨next, hnext, rfl⟩ := canonicalPath_slash h
      exact ⟨[], next, rfl, hnext, rfl⟩
  | c :: left, right, canonical, h => by
      have hslash : Lib.hexValue '/' = none := by decide
      rcases canonicalPath_first h with ⟨high, low, tail, hi, lo, next, rfl,
        hrest, hhigh, hlow, hnext, rfl⟩ |
        ⟨hc, next, hnext, rfl⟩
      · -- neither digit of an escape is the slash
        obtain ⟨left', rfl, rfl⟩ : ∃ left', left = high :: low :: left' ∧
            tail = left' ++ '/' :: right := by
          match left, hrest with
          | [], hrest =>
              cases hrest
              rw [hslash] at hhigh
              cases hhigh
          | [_], hrest =>
              cases hrest
              rw [hslash] at hlow
              cases hlow
          | _ :: _ :: left', hrest =>
              cases hrest
              exact ⟨left', rfl, rfl⟩
        obtain ⟨before, after, hbefore, hafter, rfl⟩ :=
          canonicalPath_split hnext
        exact ⟨_, after, canonicalPath_triplet hhigh hlow hbefore, hafter, rfl⟩
      · obtain ⟨before, after, hbefore, hafter, rfl⟩ :=
          canonicalPath_split hnext
        exact ⟨_, after, canonicalPath_char hc hbefore, hafter,
          (List.append_assoc ..).symm⟩
  termination_by left => left.length

theorem slash_not_mem_canonicalPath :
    ∀ {path canonical : Str}, canonicalPath path = .ok canonical → '/' ∉ path →
    '/' ∉ canonical
  | [], _, h, _ => by
      cases h
      exact List.not_mem_nil
  | c :: rest, canonical, h, hpath => by
      have hdigit : ∀ n < 16, Lib.hexDigit n ≠ '/' := by decide
      rw [List.mem_cons, not_or] at hpath
      rcases canonicalPath_first h with ⟨high, low, tail, hi, lo, next, rfl,
        rfl, hhigh, hlow, hnext, rfl⟩ |
        ⟨hc, next, hnext, rfl⟩
      · have htail : '/' ∉ tail :=
          fun hmem =>
            hpath.2 (List.mem_cons_of_mem _ (List.mem_cons_of_mem _ hmem))
        have hnext := slash_not_mem_canonicalPath hnext htail
        simp only [List.mem_cons, not_or]
        exact ⟨by decide, (hdigit _ (Lib.hexValue_some hhigh).1).symm,
          (hdigit _ (Lib.hexValue_some hlow).1).symm, hnext⟩
      · have hnext := slash_not_mem_canonicalPath hnext hpath.2
        have htext : '/' ∉ pathText c := by
          rw [pathText]
          split
          · rw [List.mem_singleton]
            exact hpath.1
          · exact not_mem_awsUriEncode (by decide)
        rw [List.mem_append]
        exact not_or_intro htext hnext
  termination_by path => path.length

theorem decodeText_canonicalPath {path canonical : Str}
    (h : canonicalPath path = .ok canonical) :
    decodeText canonical = decodeText path := by
  rw [decodeText, decodeText, (canonicalPath_spec h).2]

theorem canonicalPath_nil {path : Str} (h : canonicalPath path = .ok []) :
    path = [] := by
  cases path with
  | nil => rfl
  | cons c rest =>
      rcases canonicalPath_first h with ⟨high, low, tail, hi, lo, next, rfl,
        rfl, hhigh, hlow, hnext, hnil⟩ |
        ⟨hc, next, hnext, hnil⟩
      · cases hnil
      · have htext := (List.append_eq_nil_iff.mp hnil.symm).1
        rw [pathText] at htext
        split at htext
        · cases htext
        · have hempty : awsUriEncode [c] true = awsUriEncode [] true := htext
          cases awsUriEncode_injective hempty

theorem canonicalPath_rest {base rest rest' uri : Str}
    (hbase : base.getLast? = some '/')
    (h : canonicalUriFromEncoded (base ++ rest) = .ok uri)
    (h' : canonicalUriFromEncoded (base ++ rest') = .ok uri) :
    ∃ canonical, canonicalPath rest = .ok canonical ∧
    canonicalPath rest' = .ok canonical := by
  obtain ⟨front, rfl⟩ := List.getLast?_eq_some_iff.mp hbase
  rw [List.append_assoc, List.singleton_append] at h h'
  obtain ⟨whole, hwhole, huri⟩ := canonicalUriFromEncoded_ok h
  obtain ⟨whole', hwhole', huri'⟩ := canonicalUriFromEncoded_ok h'
  have hhead :
      (front ++ '/' :: rest).head? = (front ++ '/' :: rest').head? := by
    cases front with
    | nil => rfl
    | cons c front => rfl
  obtain ⟨before, after, hbefore, hafter, rfl⟩ := canonicalPath_split hwhole
  obtain ⟨before', after', hbefore', hafter', rfl⟩ :=
    canonicalPath_split hwhole'
  obtain rfl : before = before' := Except.ok.inj (hbefore.symm.trans hbefore')
  rw [hhead] at huri
  have hsame : before ++ '/' :: after = before ++ '/' :: after' := by
    rw [huri] at huri'
    split at huri'
    · exact huri'
    · exact (List.cons.inj huri').2
  rw [List.append_cancel_left_eq, List.cons.injEq] at hsame
  exact ⟨after, hafter, hsame.2 ▸ hafter'⟩

/-- A path below the base path has another canonical form than the bucket's
own. -/
theorem canonicalPath_keptBase {e : Endpoint} {rest uri : Str}
    (hbase : e.basePath.getLast? = some '/')
    (h : canonicalUriFromEncoded (e.basePath ++ rest) = .ok uri)
    (hkept : canonicalUriFromEncoded (e.keptBase none .virtualHosted) =
      .ok uri) :
    e.basePath ++ rest = e.keptBase none .virtualHosted := by
  rw [Endpoint.keptBase] at hkept ⊢
  split at hkept
  · next hcut =>
      exfalso
      obtain ⟨front, hfront⟩ := List.getLast?_eq_some_iff.mp hbase
      rw [hfront, List.dropLast_concat] at hkept
      rw [hfront, List.append_assoc, List.singleton_append] at h
      have hhead : (front ++ '/' :: rest).head? = front.head? := by
        cases front with
        | nil => exact absurd hfront hcut.2.2
        | cons c front => rfl
      obtain ⟨whole, hwhole, huri⟩ := canonicalUriFromEncoded_ok h
      obtain ⟨short, hshort, huri'⟩ := canonicalUriFromEncoded_ok hkept
      obtain ⟨before, after, hbefore, -, rfl⟩ := canonicalPath_split hwhole
      obtain rfl : before = short := Except.ok.inj (hbefore.symm.trans hshort)
      rw [hhead] at huri
      have hsame : before ++ '/' :: after = before := by
        rw [huri] at huri'
        split at huri'
        · exact huri'
        · exact (List.cons.inj huri').2
      exact absurd (List.append_right_eq_self.mp hsame) (List.cons_ne_nil _ _)
  · next hwhole =>
      rw [← List.append_nil e.basePath] at hkept
      obtain ⟨canonical, hcanonical, hnil⟩ := canonicalPath_rest hbase h hkept
      cases hnil
      rw [if_neg hwhole, canonicalPath_nil hcanonical, List.append_nil]

theorem splitOnce_canonicalPath {rest rest' left right canonical : Str}
    (h : canonicalPath rest = .ok canonical)
    (h' : canonicalPath rest' = .ok canonical)
    (hsplit : Lib.splitOnce '/' rest = some (left, right)) :
    ∃ left' right', Lib.splitOnce '/' rest' = some (left', right') ∧
    decodeText left' = decodeText left ∧
      decodeText right' = decodeText right := by
  obtain ⟨rfl, hleft⟩ := Lib.splitOnce_eq_some hsplit
  obtain ⟨before, after, hbefore, hafter, rfl⟩ := canonicalPath_split h
  cases hsplit' : Lib.splitOnce '/' rest' with
  | none =>
      exfalso
      refine slash_not_mem_canonicalPath h' ?_
        (List.mem_append_right _ (List.mem_cons_self ..))
      intro hmem
      obtain ⟨left', right', rfl, hnot⟩ := List.eq_append_cons_of_mem hmem
      rw [Lib.splitOnce_append _ hnot] at hsplit'
      cases hsplit'
  | some pair =>
      obtain ⟨left', right'⟩ := pair
      obtain ⟨rfl, hleft'⟩ := Lib.splitOnce_eq_some hsplit'
      obtain ⟨before', after', hbefore', hafter', heq⟩ := canonicalPath_split h'
      obtain ⟨rfl, rfl⟩ :=
        Lib.append_cons_inj (slash_not_mem_canonicalPath hbefore hleft)
        (slash_not_mem_canonicalPath hbefore' hleft') heq
      refine ⟨left', right', rfl, ?_, ?_⟩
      · rw [← decodeText_canonicalPath hbefore,
          decodeText_canonicalPath hbefore']
      · rw [← decodeText_canonicalPath hafter, decodeText_canonicalPath hafter']

section Resource

variable {site : Site} {authority bucket key path path' uri : Str}
  {resource : Str × Option Str}

/-- **A service decodes all spellings of a path alike**, if it finds an object
in them. -/
theorem Site.readResource_canonical
    (hbase : site.endpoint.basePath.getLast? = some '/')
    (h : canonicalUriFromEncoded path = .ok uri)
    (h' : canonicalUriFromEncoded path' = .ok uri)
    (hread : site.readResource authority path = some (bucket, some key))
    (hread' : site.readResource authority path' = some resource) :
    resource = (bucket, some key) := by
  rw [readResource.eq_def] at hread hread'
  obtain ⟨endpoint, style, host⟩ := site
  cases style with
  | path =>
      dsimp only at hread hread' hbase
      simp only [Option.bind_eq_bind, Option.bind_eq_some_iff] at hread hread'
      obtain ⟨rest, hrest, hread⟩ := hread
      obtain ⟨rest', hrest', hread'⟩ := hread'
      obtain rfl := Lib.dropPrefix?_eq_some.mp hrest
      obtain rfl := Lib.dropPrefix?_eq_some.mp hrest'
      obtain ⟨canonical, hcanonical, hcanonical'⟩ :=
        canonicalPath_rest hbase h h'
      split at hread
      · next left right hsplit =>
          obtain ⟨left', right', hsplit', hleft, hright⟩ :=
            splitOnce_canonicalPath hcanonical hcanonical' hsplit
          rw [hsplit'] at hread'
          dsimp only at hread'
          rw [hleft, hright] at hread'
          exact Option.some.inj (hread'.symm.trans hread)
      · obtain ⟨_, -, hnone⟩ := Option.bind_eq_some_iff.mp hread
        cases hnone
  | virtualHosted =>
      dsimp only at hread hread' hbase
      simp only [Option.bind_eq_bind, Option.bind_eq_some_iff] at hread hread'
      obtain ⟨named, hnamed, hread⟩ := hread
      obtain ⟨named', hnamed', hread'⟩ := hread'
      obtain rfl : named = named' := Option.some.inj (hnamed.symm.trans hnamed')
      split at hread
      · cases hread
      next hkept =>
      simp only [Option.bind_eq_some_iff] at hread
      obtain ⟨rest, hrest, hread⟩ := hread
      obtain rfl := Lib.dropPrefix?_eq_some.mp hrest
      split at hread'
      · next hkept' =>
          rw [hkept'] at h'
          exact absurd (canonicalPath_keptBase hbase h h') hkept
      next hkept' =>
      simp only [Option.bind_eq_some_iff] at hread'
      obtain ⟨rest', hrest', hread'⟩ := hread'
      obtain rfl := Lib.dropPrefix?_eq_some.mp hrest'
      obtain ⟨canonical, hcanonical, hcanonical'⟩ :=
        canonicalPath_rest hbase h h'
      rw [← decodeText_canonicalPath hcanonical',
        decodeText_canonicalPath hcanonical] at hread'
      obtain ⟨text, htext, hread⟩ := hread
      obtain ⟨text', htext', hread'⟩ := hread'
      obtain rfl : text = text' := Option.some.inj (htext.symm.trans htext')
      exact Option.some.inj (hread'.symm.trans hread)

end Resource

end Path

/-! ## Texts that were signed -/

section Text

variable {authority authority' method method' path path' text : Str}
  {query query' : List QueryParam}
  {headers headers' : CanonicalHeaders}

theorem normalized_visible (h : ∀ c ∈ authority, isVisibleChar c = true) :
    normalized authority = authority := by
  have hblank : ∀ c ∈ authority, isBlank c = false := by
    intro c hc
    have hvisible := h c hc
    rw [isVisibleChar, Bool.and_eq_true, decide_eq_true_iff] at hvisible
    rw [isBlank, Bool.or_eq_false_iff, beq_eq_false_iff_ne, beq_eq_false_iff_ne]
    constructor
    · rintro rfl
      exact absurd hvisible.1 (by decide)
    · rintro rfl
      exact absurd hvisible.1 (by decide)
  by_cases hnil : authority = []
  · rw [hnil]
    rfl
  · rw [normalized, Lib.words_word ⟨hnil, hblank⟩, List.intercalate_singleton]

theorem renderHeaders_host (value rest : Str) :
    (renderHeaders [("host".toList, [value])]).canonical ++ rest =
      "host:".toList ++ (value ++ '\n' :: rest) := by
  show Lib.block '\n' ["host".toList ++ ':' :: [','].intercalate [value]] ++
    rest = _
  rw [List.intercalate_singleton]
  simp [Lib.block]

theorem buildCanonicalRequest_ok {payload : Str}
    (h : buildCanonicalRequest method path query headers payload = .ok text) :
    ∃ uri, canonicalUriFromEncoded path = .ok uri ∧ '\n' ∉ uri ∧
      text = method ++ '\n' :: (uri ++ '\n' :: (canonicalQuery query ++ '\n' ::
        (headers.canonical ++
          '\n' :: (headers.signed ++ '\n' :: payload)))) := by
  rw [buildCanonicalRequest] at h
  cases huri : canonicalUriFromEncoded path with
  | error e =>
      rw [huri] at h
      cases h
  | ok uri =>
      rw [huri] at h
      refine ⟨uri, rfl, ?_, (Except.ok.inj h).symm⟩
      intro hmem
      exact Bool.false_ne_true ((canonicalUriFromEncoded_spec huri).1 _ hmem)

/-- **Equal texts are of one method, path, query and host**, up to how these are
spelled. -/
theorem buildCanonicalRequest_host {payload : Str} (hmethod : '\n' ∉ method)
    (hmethod' : '\n' ∉ method')
    (hheaders : canonicalHeaders [⟨"host", authority⟩] = .ok headers)
    (htext : buildCanonicalRequest method path query headers payload = .ok text)
    (htext' : buildCanonicalRequest method' path' query' headers' payload =
      .ok text) :
    method' = method ∧
    (∃ uri, canonicalUriFromEncoded path = .ok uri ∧
      canonicalUriFromEncoded path' = .ok uri) ∧
      query'.Perm query ∧
      (canonicalHeaders [⟨"host", authority'⟩] = .ok headers' →
        normalized authority' = normalized authority) := by
  obtain ⟨uri, huri, hclean, htext⟩ := buildCanonicalRequest_ok htext
  obtain ⟨uri', huri', hclean', htext'⟩ := buildCanonicalRequest_ok htext'
  have hqueryClean : ∀ query, '\n' ∉ canonicalQuery query := fun query =>
    not_mem_canonicalQuery (by decide) (by decide) (by decide)
  rw [htext'] at htext
  obtain ⟨hsame, hfrom⟩ := Lib.append_cons_inj hmethod' hmethod htext
  obtain ⟨rfl, hfromQuery⟩ := Lib.append_cons_inj hclean' hclean hfrom
  obtain ⟨hquery, hfromHeaders⟩ :=
    Lib.append_cons_inj (hqueryClean _) (hqueryClean _) hfromQuery
  refine ⟨hsame, ⟨uri', huri, huri'⟩, canonicalQuery_inj hquery, ?_⟩
  intro hheaders'
  obtain ⟨rfl, hline⟩ := canonicalHeaders_host hheaders
  obtain ⟨rfl, hline'⟩ := canonicalHeaders_host hheaders'
  rw [renderHeaders_host, renderHeaders_host, List.append_cancel_left_eq]
    at hfromHeaders
  exact (Lib.append_cons_inj hline' hline hfromHeaders).1

end Text

/-! ## Requests of whoever has seen the URL -/

/-- The text that a request was signed over, as it says itself. -/
def HttpRequest.presignedText (request : HttpRequest) : Option Str := do
  let query ← wireQuery ((queryOf (splitUri request.uri).pathAndQuery).getD [])
  request.grantText query (← readGrant query)

/-- A request as a server takes it: of one host, by a method on one line. -/
structure Received (authority : Str) (request : HttpRequest) : Prop where
  method : '\n' ∉ request.method
  host : ∃ value, request.headers.getAll "host" = [value] ∧
    value.bytes = Lib.utf8 authority
  visible : ∀ c ∈ authority, isVisibleChar c = true

/-- The request is signed over another text than this one, with this
signature. -/
def HttpRequest.Collides (request : HttpRequest) (verifier : Verifier)
    (grant : Grant) (text signature : Str) : Prop :=
  ∃ other secret, request.presignedText = some other ∧ other ≠ text ∧
    verifier.secretOf grant.accessKeyId grant.sessionToken = some secret ∧
    calculateSignature verifier.crypto
      ⟨grant.accessKeyId, secret, none⟩ grant.scope grant.date grant.amzDate
      (credentialScope grant.date grant.scope) other = signature

section Granted

variable {verifier : Verifier} {request : HttpRequest} {grant : Grant}
  {site : Site}

theorem Received.headerText {authority : Str} (h : Received authority request) :
    request.headerText "host" = some authority := by
  obtain ⟨value, hvalue, hbytes⟩ := h.host
  rw [HttpRequest.headerText, HeaderMap.get, hvalue, List.head?_cons,
    Option.bind_some, hbytes, Lib.utf8Decode_utf8]

theorem Verifier.grants_ok (h : verifier.grants request = some grant) :
    ∃ query, wireQuery ((queryOf (splitUri request.uri).pathAndQuery).getD []) =
      some query ∧
      readGrant query = some grant ∧ verifier.signatureOf request query grant =
        some grant.signature ∧
      (request.headers.iter.all fun entry =>
        !mustBeSigned entry.1.text || grant.signedNames.contains entry.1.text) =
            true := by
  rw [grants] at h
  obtain ⟨query, hquery, h⟩ := Option.bind_eq_some_iff.mp h
  obtain ⟨found, hfound, h⟩ := Option.bind_eq_some_iff.mp h
  dsimp only at h
  split at h
  · next hall =>
      cases h
      exact ⟨query, hquery, hfound, hall.2.2.2, hall.1⟩
  · cases h

theorem Verifier.signedText_ok (h : verifier.grants request = some grant) :
    ∃ text secret, request.presignedText = some text ∧
      verifier.secretOf grant.accessKeyId grant.sessionToken = some secret ∧
      calculateSignature verifier.crypto
        ⟨grant.accessKeyId, secret, none⟩ grant.scope grant.date grant.amzDate
        (credentialScope grant.date grant.scope) text = grant.signature := by
  obtain ⟨query, hquery, hgrant, hsigned, -⟩ := grants_ok h
  rw [signatureOf] at hsigned
  obtain ⟨secret, hsecret, hsigned⟩ := Option.bind_eq_some_iff.mp hsigned
  obtain ⟨text, htext, hsigned⟩ := Option.bind_eq_some_iff.mp hsigned
  refine ⟨text, secret, ?_, hsecret, Option.some.inj hsigned⟩
  rw [HttpRequest.presignedText, hquery, Option.bind_eq_bind, Option.bind_some,
    hgrant]
  exact htext

theorem HttpRequest.grantText_ok {query : List QueryParam} {text : Str}
    (h : request.grantText query grant = some text) :
    ∃ headers canonical, wireHeaders request.headers grant.signedNames =
      some headers ∧
      canonicalHeaders headers = .ok canonical ∧
      buildCanonicalRequest request.method (splitUri request.uri).path
        (query.filter fun parameter => parameter.name != signatureName)
          canonical unsignedPayload = .ok text := by
  rw [grantText] at h
  obtain ⟨headers, hheaders, h⟩ := Option.bind_eq_some_iff.mp h
  obtain ⟨canonical, hcanonical, h⟩ := Option.bind_eq_some_iff.mp h
  exact ⟨headers, canonical, hheaders, Lib.toOption_ok hcanonical,
    Lib.toOption_ok h⟩

theorem Site.reads_resource {resource : Str × Action}
    (h : site.reads request = some resource) :
    ∃ authority found, request.headerText "host" = some authority ∧
      site.readResource authority (splitUri request.uri).path = some found := by
  rw [reads] at h
  obtain ⟨authority, hauthority, h⟩ := Option.bind_eq_some_iff.mp h
  obtain ⟨found, hfound, -⟩ := Option.bind_eq_some_iff.mp h
  exact ⟨authority, found, hauthority, hfound⟩

end Granted

section Seen

variable {crypto : Crypto} {grammar : UriGrammar} {config : S3Config}
  {env : PresignEnv} {expires : Duration}
  {operation : PresignedOperation} {input url text authority : Str}
  {credentials : Credentials} {target : EndpointUrl}
  {rest : List QueryParam} {headers : CanonicalHeaders} {request : HttpRequest}
  {grant : Grant} {verifier : Verifier}

theorem S3Config.operationTarget_visible {key : Option Str}
    (hgrammar : grammar.Visible)
    (hendpoint : Endpoint.new grammar input = .ok config.endpoint)
    (h : config.operationTarget grammar key = .ok target) :
    ∀ c ∈ target.authority, isVisibleChar c = true := by
  obtain ⟨hurl, -⟩ := Endpoint.objectUrl_target (Endpoint.new_valid hendpoint) h
  obtain ⟨own, -, hparts⟩ := Endpoint.objectUrl_eq h
  obtain ⟨-, haccepted⟩ := EndpointUrl.fromParts_eq hparts
  have hsplit := splitUri_serialized hurl
  exact hgrammar _ _ haccepted (by rw [hsplit])

namespace PresignedParts

variable (h :
  PresignedParts crypto grammar config env expires operation url credentials
    target rest headers text)

include h

theorem presignedText_borne {host : Str}
    (hhost : target.authority = config.serviceAuthority host)
    (hborne :
    Borne operation.method url (config.serviceAuthority host) request) :
    request.presignedText = some text := by
  obtain ⟨signed, -, hpresigned⟩ := h.signed
  have hgrant := h.readGrant_rest (by rw [hpresigned.removed])
  rw [h.param_signature, Option.map_some] at hgrant
  rw [HttpRequest.presignedText, h.wire hborne.uri, Option.bind_eq_bind,
    Option.bind_some, hgrant]
  exact grantText_borne hpresigned hhost hborne.method
    (hborne.uri ▸ h.path) hborne.host rfl

/-- A granted request over the text of the URL is the request of the URL. -/
theorem request_eq (hreceived : Received authority request)
    (hgrants : verifier.grants request = some grant)
    (hvisible : ∀ c ∈ target.authority, isVisibleChar c = true)
    (htext : request.presignedText = some text) :
    request.method = operation.method ∧ authority = target.authority ∧
    ¬ Meddled request ∧
      grant.Of credentials config.signingScope env.timestamp expires ∧
      ∃ uri query, canonicalUriFromEncoded target.pathAndQuery = .ok uri ∧
        canonicalUriFromEncoded (splitUri request.uri).path = .ok uri ∧
        wireQuery ((queryOf (splitUri request.uri).pathAndQuery).getD []) =
          some query ∧
        (query.filter fun parameter => parameter.name != signatureName).Perm
          rest := by
  obtain ⟨query, hquery, hgrant, -, hcovered⟩ := Verifier.grants_ok hgrants
  rw [HttpRequest.presignedText, hquery, Option.bind_eq_bind, Option.bind_some,
    hgrant, Option.bind_eq_bind,
    Option.bind_some] at htext
  obtain ⟨wire, canonical, hwire, hcanonical, hbuilt⟩ :=
    HttpRequest.grantText_ok htext
  obtain ⟨signed, -, hpresigned⟩ := h.signed
  obtain ⟨uri, huri, hline⟩ := hpresigned.line
  have hown :
      buildCanonicalRequest operation.method target.pathAndQuery rest headers
          unsignedPayload = .ok text := by
    have huri : canonicalUriFromEncoded target.pathAndQuery = .ok uri := huri
    rw [buildCanonicalRequest, huri, hline]
    rfl
  have hmethod : '\n' ∉ operation.method :=
    fun hmem => Bool.false_ne_true (h.named.2.2 _ hmem)
  obtain ⟨hsame, huris, hperm, hhost⟩ :=
    @buildCanonicalRequest_host _ authority _ _ _ _ _ _ _ _ _ _ hmethod
    hreceived.method hpresigned.canonical hown hbuilt
  obtain ⟨uri, huri, huri'⟩ := huris
  -- the same parameters name the same headers
  rw [h.readGrant_rest hperm] at hgrant
  obtain ⟨signature, -, rfl⟩ := Option.map_eq_some_iff.mp hgrant
  obtain ⟨value, hvalue, hbytes⟩ := hreceived.host
  rw [wireHeaders_host hvalue hbytes] at hwire
  cases hwire
  have hauthority := hhost hcanonical
  rw [normalized_visible hreceived.visible, normalized_visible hvisible]
    at hauthority
  exact ⟨hsame, hauthority, covered_iff.mp hcovered, ⟨rfl, rfl, rfl, rfl, rfl⟩,
    uri, query, huri, huri', hquery, hperm⟩

end PresignedParts

end Seen

/-- **A presigned URL is good for nothing else**: whoever has seen one and makes
a request with its signature either makes the request of the URL, or knows a
second text that has this signature. -/
theorem presigned_grants_only {crypto : Crypto} {grammar : UriGrammar}
    {config : S3Config} {env : PresignEnv} {expires : Duration}
    {input url : Str} {operation : PresignedOperation}
    (hgrammar : grammar.Visible)
    (hendpoint : Endpoint.new grammar input = .ok config.endpoint)
    (h : operation.presigned crypto grammar config env expires = .ok url) :
    ∃ credentials host text query signature, env.credentials = .ok credentials ∧
      (∀ request,
        Borne operation.method url (config.serviceAuthority host) request →
        request.presignedText = some text) ∧
      wireQuery ((queryOf (splitUri url).pathAndQuery).getD []) = some query ∧
      param signatureName query = some signature ∧
      ∀ authority request, Received authority request →
      ∀ (verifier : Verifier) (grant : Grant),
        verifier.grants request = some grant → grant.signature = signature →
          request.Collides verifier grant text signature ∨
          (request.method = operation.method ∧
            authority = config.serviceAuthority host ∧ ¬ Meddled request ∧
            grant.Of credentials config.signingScope env.timestamp expires ∧
            ∀ resource,
              (Site.mk config.endpoint config.addressingStyle host).reads
                request = some resource →
              resource = (config.bucket, operation.action)) := by
  obtain ⟨credentials, target, rest, headers, text, hparts⟩ :=
    presigned_parts hendpoint h
  obtain ⟨host, hhost⟩ := S3Config.exists_serviceAuthority hparts.aimed
  obtain ⟨signed, hquery, hpresigned⟩ := hparts.signed
  refine ⟨credentials, host, text, _, _, hparts.given, ?_, ?_,
    hparts.param_signature, ?_⟩
  · intro request hborne
    exact hparts.presignedText_borne hhost hborne
  · rw [hquery]
    exact hpresigned.read
  intro authority request hreceived verifier grant hgrants hsignature
  obtain ⟨other, secret, hother, hsecret, hsigned⟩ :=
    Verifier.signedText_ok hgrants
  by_cases hsame : other = text
  · subst hsame
    refine Or.inr ?_
    have hvisible :=
      S3Config.operationTarget_visible hgrammar hendpoint hparts.aimed
    obtain ⟨hmethod, hauthority, hplain, hof, uri, query, huri, huri', hwire,
        hperm⟩ :=
      hparts.request_eq hreceived hgrants hvisible hother
    refine ⟨hmethod, hauthority.trans hhost, hplain, hof, ?_⟩
    intro resource hreads
    have hread :
        request.headerText "host" = some (config.serviceAuthority host) := by
      rw [hreceived.headerText, hauthority, hhost]
    obtain ⟨own, found, hown, hfound⟩ := Site.reads_resource hreads
    obtain rfl : config.serviceAuthority host = own :=
      Option.some.inj (hread.symm.trans hown)
    have hresource :=
      @Site.readResource_url grammar config.endpoint config.bucket host
        (some operation.key.text)
      config.addressingStyle target (Endpoint.new_closed hendpoint)
      (fun h => operation.key.nonempty (Option.some.inj h)) hparts.aimed
    obtain rfl :=
      Site.readResource_canonical
        (Endpoint.new_closed hendpoint) huri huri' hresource hfound
    rw [Site.reads_eq _ hread hfound hwire] at hreads
    dsimp only at hreads
    rw [hmethod, headerText_of_not_meddled hplain,
      operation.read_action (hparts.says_rest hperm)] at hreads
    exact (Option.some.inj hreads).symm
  · exact Or.inl
      ⟨other, secret, hother, hsame, hsecret, hsigned.trans hsignature⟩

/-! The URL for one part of an upload, sent with another method. -/

theorem visibleEndpoint_new :
    Endpoint.new visibleGrammar "https://s3.us-east-1.amazonaws.com" =
    .ok unkeyedClient.config.endpoint := rfl

def visiblePresigned : Except S3Error Str :=
  presignedPart.presigned unkeyedClient.crypto visibleGrammar
    unkeyedClient.config samplePresignEnv
    (Duration.fromSecs 60)

set_option maxRecDepth 100000 in
theorem visiblePresigned_ok : visiblePresigned.toOption.isSome = true := by
    decide +kernel

/-- The upload is to be aborted with the URL of a part. -/
def deletingRequest (url : Str) : HttpRequest :=
  { borneRequest url with method := "DELETE" }

theorem deletingRequest_received (url : Str) :
    Received "s3.us-east-1.amazonaws.com" (deletingRequest url) := by
  have hmethod : '\n' ∉ "DELETE".toList := by decide
  have hvisible : "s3.us-east-1.amazonaws.com".toList.all isVisibleChar =
    true := by decide
  exact ⟨hmethod, ⟨sampleHostValue, rfl, rfl⟩, List.all_eq_true.mp hvisible⟩

theorem presigned_grants_only_part :
    ∃ url text signature, visiblePresigned = .ok url ∧
    ∀ (verifier : Verifier) (grant : Grant),
      verifier.grants (deletingRequest url) = some grant →
      grant.signature = signature →
      (deletingRequest url).Collides verifier grant text signature := by
  obtain ⟨url, hurl⟩ := Option.isSome_iff_exists.mp visiblePresigned_ok
  have hurl := Lib.toOption_ok hurl
  obtain ⟨_, _, text, _, signature, -, -, -, -, honly⟩ :=
    presigned_grants_only visibleGrammar_visible visibleEndpoint_new hurl
  refine ⟨url, text, signature, hurl, ?_⟩
  intro verifier grant hgrants hsignature
  rcases honly _ _
    (deletingRequest_received url) verifier grant hgrants hsignature
      with hcollides | ⟨hmethod, -⟩
  · exact hcollides
  · cases hmethod

end S3Wire
