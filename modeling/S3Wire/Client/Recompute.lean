/-
# `S3Wire.Client.Recompute` — the signature fits the request that is sent

The signature covers a text built from a query list, a header list and a payload
hash; the service sees none of these.  It sees a method, a URI, headers, and it
builds the text again from them (`recomputed`):

    signed                         read back from the request
    ------                         --------------------------
    the path of the target         the path of the URI
    the parameters, unordered      the query of the URI, split and decoded
    the headers before signing,    the headers that `SignedHeaders` names,
      the date, the token            in the order of the map
    the payload hash               `x-amz-content-sha256`

`signedRequest_recomputes` says that both texts are the same, and that nothing
but the signature itself is left out of it.
-/
import S3Wire.Client.Query
import S3Wire.Client.Signing
import S3Wire.Endpoint.Identity

namespace S3Wire

/-! ## Reading a request back -/

/-- A header as text. -/
def HttpRequest.headerText (request : HttpRequest) (name : Str) : Option Str :=
  (request.headers.get name).bind fun value => Lib.utf8Decode value.bytes

/-- The names in the `SignedHeaders` field of an authorization. -/
def signedHeaderNames (authorization : Str) : Option (List Str) :=
  ((authorization.splitOn ',').findSome? fun field =>
    field.dropPrefix? " SignedHeaders=".toList).map fun names =>
      names.splitOn ';'

/-- One header of a request as it goes into the canonical request. -/
def wireHeader (entry : HeaderName × HeaderValue) : Option Header :=
  (Lib.utf8Decode entry.2.bytes).map fun value => ⟨entry.1.text, value⟩

/-- The headers of these names, repeated values in the order of the map. -/
def wireHeaders (headers : HeaderMap) (names : List Str) :
    Option (List Header) :=
  (headers.iter.filter fun entry => names.contains entry.1.text).mapM wireHeader

/-- The canonical request, from the HTTP request alone. -/
def recomputed (request : HttpRequest) : Option Str := do
  let authorization ← request.headerText "authorization"
  let names ← signedHeaderNames authorization
  let uri := splitUri request.uri
  let query ← wireQuery ((queryOf uri.pathAndQuery).getD [])
  let headers ← wireHeaders request.headers names
  let canonical ← (canonicalHeaders headers).toOption
  let payloadHash ← request.headerText "x-amz-content-sha256"
  (buildCanonicalRequest request.method uri.path query canonical
    payloadHash).toOption

/-! ## The authorization -/

theorem not_mem_padded {width n : Nat} {c : Char} (hc : c.isDigit = false) :
    c ∉ padded width n := by
  intro hmem
  rcases List.mem_append.mp hmem with hmem | hmem
  · rw [List.eq_of_mem_replicate hmem] at hc
    cases hc
  · rw [isDigit_decimal hmem] at hc
    cases hc

theorem comma_not_mem_date (timestamp : DateTime) :
    ',' ∉ (formatTimestamp timestamp).2 := by
  have hpadded : ∀ {width n}, ',' ∉ padded width n := not_mem_padded (by decide)
  simp only [formatTimestamp, formatYear]
  split <;> simp [hpadded]

theorem comma_not_mem_hexEncode (bytes : Bytes) : ',' ∉ hexEncode bytes := by
  have hdigit : ∀ n < 16, lowerHexDigit n ≠ ',' := by decide
  intro hmem
  exact forall_mem_hexEncode (P := fun c => c ≠ ',') hdigit bytes ',' hmem rfl

/-- The field of the names is the only one that starts with its label. -/
theorem signedHeaderNames_authorizationHeader
    {accessKeyId scope signature : Str} {names : List Str}
    (hkey : ',' ∉ accessKeyId) (hscope : ',' ∉ scope)
    (hsignature : ',' ∉ signature) (hne : names ≠ [])
    (hcomma : ∀ name ∈ names, ',' ∉ name)
    (hsemicolon : ∀ name ∈ names, ';' ∉ name) :
    signedHeaderNames
      (authorizationHeader accessKeyId scope
        ([';'].intercalate names) signature) =
      some names := by
  have hfields :
      authorizationHeader accessKeyId scope
        ([';'].intercalate names) signature =
      [','].intercalate
        [algorithm ++ " Credential=".toList ++ accessKeyId ++ '/' :: scope,
        " SignedHeaders=".toList ++ [';'].intercalate names,
            " Signature=".toList ++ signature] := by
    have hsigned :
      ", SignedHeaders=".toList = ',' :: " SignedHeaders=".toList := by decide
    have hsign : ", Signature=".toList = ',' :: " Signature=".toList := by
      decide
    simp only [authorizationHeader, hsigned, hsign, List.intercalate_cons_cons,
      List.intercalate_singleton,
      List.append_assoc, List.cons_append, List.nil_append]
  have hnames : ',' ∉ [';'].intercalate names := by
    intro hmem
    rcases Lib.mem_intercalate hmem with hmem | ⟨name, hname, hmem⟩
    · cases hmem
    · exact hcomma name hname hmem
  have hclean :
      ∀ field ∈ [algorithm ++ " Credential=".toList ++ accessKeyId ++ '/' :: scope,
      " SignedHeaders=".toList ++ [';'].intercalate names,
        " Signature=".toList ++ signature],
      ',' ∉ field := by
    have hlabels : ',' ∉ algorithm ∧ ',' ∉ " Credential=".toList ∧
        ',' ∉ " SignedHeaders=".toList ∧
        ',' ∉ " Signature=".toList := by decide
    intro field hfield
    simp only [List.mem_cons, List.not_mem_nil, or_false] at hfield
    rcases hfield with rfl | rfl | rfl
    · simp only [List.mem_append, List.mem_cons, not_or]
      exact ⟨⟨⟨hlabels.1, hlabels.2.1⟩, hkey⟩, by decide, hscope⟩
    · simp only [List.mem_append, not_or]
      exact ⟨hlabels.2.2.1, hnames⟩
    · simp only [List.mem_append, not_or]
      exact ⟨hlabels.2.2.2, hsignature⟩
  have hfirst :
      (algorithm ++ " Credential=".toList ++ accessKeyId ++
        '/' :: scope).dropPrefix?
      " SignedHeaders=".toList = none := rfl
  unfold signedHeaderNames
  rw [hfields, List.splitOn_intercalate ',' hclean (by simp),
    List.findSome?_cons, hfirst,
    List.findSome?_cons, List.dropPrefix?_append_of_beq _ BEq.rfl]
  simp only [Option.map_some, List.splitOn_intercalate ';' hsemicolon hne]

/-! ## The headers -/

theorem utf8_asciiText : ∀ {bytes : Bytes}, (∀ b ∈ bytes, b.toNat ≤ 127) →
    Lib.utf8 (asciiText bytes) = bytes
  | [], _ => rfl
  | b :: bytes, h => by
      have hascii : ∀ b ∈ bytes, b.toNat ≤ 127 := fun b hb => h b (by simp [hb])
      have hrest := utf8_asciiText hascii
      unfold asciiText at hrest ⊢
      rw [List.map_cons, Lib.utf8_cons,
        Lib.utf8EncodeChar_ofNat (h b (by simp)), hrest]
      rfl

/-- A value read as text before signing is read as the same text from the
wire. -/
theorem HeaderValue.utf8Decode_of_toStr {v : HeaderValue} {s : Str}
    (h : v.toStr = some s) :
    Lib.utf8Decode v.bytes = some s := by
  have hascii : ∀ b : UInt8, isVisibleByte b = true → b.toNat ≤ 127 :=
    Lib.forall_byte (by decide +kernel)
  unfold toStr at h
  split at h
  · next hvisible =>
      cases h
      have hbytes :=
        utf8_asciiText fun b hb => hascii b (List.all_eq_true.mp hvisible b hb)
      rw [← Lib.utf8Decode_utf8 (asciiText v.bytes), hbytes]
  · cases h

/-- The entries of a map against the headers they stand for. -/
abbrev ReadAs (entries : List (HeaderName × HeaderValue))
    (headers : List Header) : Prop :=
  List.Forall₂ (fun entry header => header.name = entry.1.text ∧
    wireHeader entry = some header)
    entries headers

theorem ownedHeaders_ok {headers : HeaderMap} {owned : List Header}
    (h : ownedHeaders headers = .ok owned) :
    ReadAs headers.iter owned := by
  refine (Lib.mapM_ok h).imp fun entry header hentry => ?_
  split at hentry
  · next value hvalue =>
      cases hentry
      exact ⟨rfl,
        by rw [wireHeader, HeaderValue.utf8Decode_of_toStr hvalue]; rfl⟩
  · cases hentry

theorem ReadAs.names {entries : List (HeaderName × HeaderValue)}
    {headers : List Header} (h : ReadAs entries headers) :
    headers.map Header.name = entries.map fun entry => entry.1.text := by
  induction h with
  | nil => rfl
  | cons hhead _ ih => simp [hhead.1, ih]

theorem ReadAs.append {entries entries' : List (HeaderName × HeaderValue)}
    {headers headers' : List Header} (h : ReadAs entries headers)
    (h' : ReadAs entries' headers') :
    ReadAs (entries ++ entries') (headers ++ headers') := by
  induction h with
  | nil => exact h'
  | cons hhead _ ih => exact .cons hhead ih

theorem HeaderMap.mem_names_iff {headers : HeaderMap} {name : HeaderName} :
    name ∈ headers.entries.map Prod.fst ↔
    ∃ value, (name, value) ∈ headers.iter := by
  constructor
  · intro hmem
    obtain ⟨entry, hentry, rfl⟩ := List.mem_map.mp hmem
    obtain ⟨value, rest, hvalue⟩ :=
      List.exists_cons_of_ne_nil (headers.filled entry hentry)
    refine ⟨value, List.mem_flatMap.mpr ⟨entry, hentry, ?_⟩⟩
    exact List.mem_map.mpr ⟨value, by simp [hvalue], rfl⟩
  · rintro ⟨value, hmem⟩
    obtain ⟨entry, hentry, hvalue⟩ := List.mem_flatMap.mp hmem
    obtain ⟨_, _, hpair⟩ := List.mem_map.mp hvalue
    exact List.mem_map.mpr ⟨entry, hentry, (Prod.mk.inj hpair).1⟩

theorem isHeaderTokenChar_of_name {c : Char} (h : isHeaderNameChar c = true) :
    isHeaderTokenChar c = true := by
  simp only [isHeaderNameChar, Bool.or_eq_true] at h
  simp only [isHeaderTokenChar, Bool.or_eq_true]
  rcases h with (h | h) | h
  · exact Or.inl (by simp [Char.isAlphanum, Char.isAlpha, h])
  · exact Or.inl (by simp [Char.isAlphanum, h])
  · exact Or.inr h

theorem HeaderName.toAsciiLowercase_text (name : HeaderName) :
    toAsciiLowercase name.text = name.text := by
  unfold toAsciiLowercase
  conv_rhs => rw [← List.map_id name.text]
  refine List.map_congr_left fun c hc => ?_
  have hname := List.all_eq_true.mp name.token c hc
  exact Lib.forall_ascii (P := fun c => isHeaderNameChar c = true →
    c.toLower = c) (by decide +kernel)
    (ascii_of_isHeaderTokenChar (isHeaderTokenChar_of_name hname)) hname

theorem not_mem_of_rejectReserved {headers : HeaderMap} {owned : List Header}
    {name : HeaderName} (howned : ownedHeaders headers = .ok owned)
    (h : rejectReservedHeaders owned = .ok ())
    (hname : name.text ∈ reservedHeaders) :
    name ∉ headers.entries.map Prod.fst := by
  intro hmem
  obtain ⟨value, hvalue⟩ := HeaderMap.mem_names_iff.mp hmem
  have htext : name.text ∈ owned.map Header.name := by
    rw [(ownedHeaders_ok howned).names]
    exact List.mem_map.mpr ⟨_, hvalue, rfl⟩
  obtain ⟨header, hheader, heq⟩ := List.mem_map.mp htext
  unfold rejectReservedHeaders at h
  rw [if_pos] at h
  · cases h
  · refine List.any_eq_true.mpr
      ⟨header, hheader, List.any_eq_true.mpr ⟨name.text, hname, ?_⟩⟩
    simp [eqIgnoreAsciiCase, heq]

theorem HeaderMap.containsKey_iff {headers : HeaderMap} {name : Str} :
    headers.containsKey name = true ↔ ∃ entry ∈ headers.iter,
      entry.1.text = name := by
  unfold containsKey
  rw [List.any_eq_true]
  constructor
  · rintro ⟨entry, hentry, hname⟩
    obtain ⟨value, hvalue⟩ :=
      mem_names_iff.mp (List.mem_map.mpr ⟨entry, hentry, rfl⟩)
    exact ⟨_, hvalue, by simpa using hname⟩
  · rintro ⟨⟨n, value⟩, hentry, rfl⟩
    obtain ⟨entry, hmem, hn⟩ :=
      List.mem_map.mp (mem_names_iff.mpr ⟨value, hentry⟩)
    exact ⟨entry, hmem, by simp [hn]⟩

theorem wireHeader_utf8 {name : HeaderName} {v : HeaderValue} {s : Str}
    (h : v.bytes = Lib.utf8 s) :
    wireHeader (name, v) = some ⟨name.text, s⟩ := by
  rw [wireHeader, h, Lib.utf8Decode_utf8]
  rfl

/-- What the signature adds: the authorization, and what it covers itself. -/
theorem insertSignature_iter {base headers : HeaderMap}
    {signed : HeaderSigningOutput}
    (h : insertSignature base signed = .ok headers)
    (hreserved : ∀ name : HeaderName, name.text ∈ reservedHeaders →
      name ∉ base.entries.map Prod.fst) :
    ∃ authorization added, authorization.bytes = Lib.utf8 signed.authorization ∧
      headers.iter = base.iter ++ (.authorization, authorization) :: added ∧
      headers.get "authorization" = some authorization ∧
      headers.get "x-amz-content-sha256" = base.get "x-amz-content-sha256" ∧
      ReadAs added (⟨"x-amz-date", signed.amzDate⟩ ::
        (signed.securityToken.map fun token =>
          (⟨"x-amz-security-token", token⟩ : Header)).toList) := by
  have hauthorization := hreserved .authorization (by decide)
  have hdate := hreserved .amzDate (by decide)
  have htoken := hreserved .amzSecurityToken (by decide)
  obtain ⟨authorization, date, hvalue, hdateValue, hadded⟩ :=
    insertSignature_ok h
  have hdate' : HeaderName.amzDate ∉
      (base.insert .authorization authorization).entries.map Prod.fst := by
    show _ ∉ (insertEntry _ _ _).map _
    rw [mem_insertEntry_names]
    rintro (heq | hmem)
    · exact absurd heq (by decide)
    · exact hdate hmem
  have htoken' : HeaderName.amzSecurityToken ∉
      ((base.insert .authorization authorization).insert .amzDate
          date).entries.map Prod.fst := by
    show _ ∉ (insertEntry _ _ (insertEntry _ _ _)).map _
    rw [mem_insertEntry_names, mem_insertEntry_names]
    rintro (heq | heq | hmem)
    · exact absurd heq (by decide)
    · exact absurd heq (by decide)
    · exact htoken hmem
  refine ⟨authorization, ?_⟩
  rcases hadded with ⟨hnone, rfl⟩ | ⟨token, value, hsome, htokenValue, rfl⟩
  · refine ⟨[(.amzDate, date)], hvalue, ?_, ?_, ?_, ?_⟩
    · rw [HeaderMap.iter_insert hdate', HeaderMap.iter_insert hauthorization,
        List.append_assoc]
      rfl
    · rw [HeaderMap.get_insert, if_neg (by decide), HeaderMap.get_insert,
        if_pos (by decide)]
    · rw [HeaderMap.get_insert, if_neg (by decide), HeaderMap.get_insert,
        if_neg (by decide)]
    · rw [hnone]
      exact .cons ⟨rfl, wireHeader_utf8 hdateValue⟩ .nil
  · refine ⟨[(.amzDate, date), (.amzSecurityToken, value)], hvalue, ?_, ?_, ?_,
      ?_⟩
    · rw [HeaderMap.iter_insert htoken', HeaderMap.iter_insert hdate',
        HeaderMap.iter_insert hauthorization,
        List.append_assoc, List.append_assoc]
      rfl
    · rw [HeaderMap.get_insert, if_neg (by decide), HeaderMap.get_insert,
        if_neg (by decide),
        HeaderMap.get_insert, if_pos (by decide)]
    · rw [HeaderMap.get_insert, if_neg (by decide), HeaderMap.get_insert,
        if_neg (by decide),
        HeaderMap.get_insert, if_neg (by decide)]
    · rw [hsome]
      exact .cons ⟨rfl, wireHeader_utf8 hdateValue⟩
        (.cons ⟨rfl, wireHeader_utf8 htokenValue⟩ .nil)

theorem unsignedHeaders_payload {input : SignedRequestInput}
    {headers : HeaderMap} (h : unsignedHeaders input = .ok headers) :
    ∃ value, headers.get "x-amz-content-sha256" = some value ∧
    value.bytes = Lib.utf8 input.payloadHash := by
  unfold unsignedHeaders at h
  obtain ⟨host, hhost, h⟩ := Lib.bind_ok h
  obtain ⟨payload, hpayload, h⟩ := Lib.bind_ok h
  refine ⟨payload, ?_, headerValue_ok hpayload⟩
  simp only at h
  split at h
  · cases h
    rw [HeaderMap.get_insert, if_neg (by decide), HeaderMap.get_insert,
      if_pos (by decide)]
  · cases h
    rw [HeaderMap.get_insert, if_pos (by decide)]

/-! ## The two views agree -/

/-- The authorization that signs `text` and names `signedNames`. -/
def authorizationOf (crypto : Crypto) (credentials : SigningCredentials)
    (scope : SigningScope) (timestamp : DateTime) (signedNames text : Str) :
    Str :=
  let (amzDate, date) := formatTimestamp timestamp
  authorizationHeader credentials.accessKeyId
    (credentialScope date scope) signedNames
    (calculateSignature crypto credentials scope date amzDate
      (credentialScope date scope) text)

section Views

variable {crypto : Crypto} {credentials : SigningCredentials}
  {scope : SigningScope}
  {request : HeaderSigningRequest} {timestamp : DateTime}
  {base headers : HeaderMap} {owned : List Header}
  {ordered : List (Str × List Str)}

theorem signedHeaderNames_authorizationOf {text : Str}
    (hcommon : validateCommon credentials scope request.method = .ok ())
    (hne : ordered ≠ []) (hclean : ∀ entry ∈ ordered, CleanEntry entry) :
    signedHeaderNames
      (authorizationOf crypto credentials scope timestamp
        (renderHeaders ordered).signed text) =
      some (ordered.map Prod.fst) := by
  obtain ⟨hkey, hregion, hservice, -⟩ := validateCommon_ok hcommon
  have hscopeChar : ∀ {s : Str}, (∀ c ∈ s, isScopeChar c = true) → ',' ∉ s :=
    fun h hmem =>
    Bool.false_ne_true (h _ hmem)
  have hname : ∀ {c : Char}, isHeaderTokenChar c = false →
      ∀ name ∈ ordered.map Prod.fst, c ∉ name := by
    intro c hc name hname hmem
    obtain ⟨entry, hentry, rfl⟩ := List.mem_map.mp hname
    rw [(hclean entry hentry).2.1 c hmem] at hc
    cases hc
  have hscope : ',' ∉ credentialScope (formatTimestamp timestamp).2 scope := by
    have hdate := comma_not_mem_date timestamp
    revert hdate
    generalize (formatTimestamp timestamp).2 = date
    intro hdate
    simp only [credentialScope, List.mem_append, List.mem_cons, not_or]
    exact ⟨hdate, by decide, hscopeChar hregion, by decide, hscopeChar hservice,
      by decide, by decide⟩
  exact signedHeaderNames_authorizationHeader (hscopeChar hkey) hscope
    (comma_not_mem_hexEncode _)
    (by simpa using hne) (hname (by decide)) (hname (by decide))

theorem mem_signed_iff {entries : List (HeaderName × HeaderValue)}
    {signedList : List Header} (hread : ReadAs entries signedList)
    (hordered : orderHeaders signedList [] = .ok ordered) {name : Str} :
    name ∈ ordered.map Prod.fst ↔ ∃ entry ∈ entries, entry.1.text = name := by
  have hlower : ∀ header ∈ signedList, toAsciiLowercase header.name =
      header.name := by
    intro header hheader
    have hmem : header.name ∈ entries.map fun entry => entry.1.text := by
      rw [← hread.names]
      exact List.mem_map_of_mem hheader
    obtain ⟨entry, -, heq⟩ := List.mem_map.mp hmem
    rw [← heq, HeaderName.toAsciiLowercase_text]
  have hnames : (∃ header ∈ signedList, toAsciiLowercase header.name = name) ↔
      name ∈ signedList.map Header.name := by
    rw [List.mem_map]
    exact exists_congr fun header => and_congr_right fun hheader => by
      rw [hlower header hheader]
  rw [orderHeaders_names hordered, hnames, hread.names]
  simp only [List.map_nil, List.not_mem_nil, false_or, List.mem_map]

section Entries

variable {authorization : HeaderValue} {added : List (HeaderName × HeaderValue)}
  {signedList : List Header}

/-- A signed name is a header of the request other than the authorization, and
every such header is signed. -/
theorem mem_signed_iff_containsKey
    (hiter : headers.iter =
      base.iter ++ (HeaderName.authorization, authorization) :: added)
    (hread : ReadAs (base.iter ++ added) signedList)
    (hordered : orderHeaders signedList [] = .ok ordered)
    (hnot : ∀ entry ∈ base.iter ++ added, entry.1.text ≠ "authorization".toList)
    (name : Str) :
    name ∈ ordered.map Prod.fst ↔ name ≠ "authorization".toList ∧
    headers.containsKey name = true := by
  rw [mem_signed_iff hread hordered, HeaderMap.containsKey_iff, hiter]
  constructor
  · rintro ⟨entry, hentry, rfl⟩
    refine ⟨hnot entry hentry, entry, ?_, rfl⟩
    rcases List.mem_append.mp hentry with hentry | hentry
    · exact List.mem_append_left _ hentry
    · exact List.mem_append_right _ (List.mem_cons_of_mem _ hentry)
  · rintro ⟨hne, entry, hentry, rfl⟩
    rcases List.mem_append.mp hentry with hentry | hentry
    · exact ⟨entry, List.mem_append_left _ hentry, rfl⟩
    · rcases List.mem_cons.mp hentry with rfl | hentry
      · exact absurd rfl hne
      · exact ⟨entry, List.mem_append_right _ hentry, rfl⟩

theorem wireHeaders_signed
    (hiter : headers.iter =
      base.iter ++ (HeaderName.authorization, authorization) :: added)
    (hread : ReadAs (base.iter ++ added) signedList)
    (hordered : orderHeaders signedList [] = .ok ordered)
    (hnot : ∀ entry ∈ base.iter ++ added,
      entry.1.text ≠ "authorization".toList) :
    wireHeaders headers (ordered.map Prod.fst) = some signedList := by
  have hkept : ∀ entry ∈ base.iter ++ added,
      (ordered.map Prod.fst).contains entry.1.text = true := by
    intro entry hentry
    exact List.contains_iff_mem.mpr
      ((mem_signed_iff hread hordered).mpr ⟨entry, hentry, rfl⟩)
  have hdropped :
      (ordered.map Prod.fst).contains HeaderName.authorization.text ≠ true := by
    intro hmem
    obtain ⟨entry, hentry, heq⟩ :=
      (mem_signed_iff hread hordered).mp (List.contains_iff_mem.mp hmem)
    exact hnot entry hentry heq
  have hfilter :
      (headers.iter.filter fun entry =>
        (ordered.map Prod.fst).contains entry.1.text) =
      base.iter ++ added := by
    have hcons : ((HeaderName.authorization, authorization) :: added).filter
        (fun entry => (ordered.map Prod.fst).contains entry.1.text) =
          added.filter fun entry =>
              (ordered.map Prod.fst).contains entry.1.text :=
      List.filter_cons_of_neg hdropped
    rw [hiter, List.filter_append, hcons, ← List.filter_append,
      List.filter_eq_self.mpr hkept]
  unfold wireHeaders
  rw [hfilter]
  exact Lib.mapM_some (hread.imp fun _ _ h => h.2)

/-- The authorization is neither among what was signed nor among what came with
it. -/
theorem not_authorization {date : Str} {token : Option Str}
    {entry : HeaderName × HeaderValue}
    (hbase : ∀ name : HeaderName, name.text ∈ reservedHeaders →
      name ∉ base.entries.map Prod.fst)
    (hadded : ReadAs added (⟨"x-amz-date", date⟩ ::
      (token.map fun token =>
        (⟨"x-amz-security-token", token⟩ : Header)).toList))
    (hentry : entry ∈ base.iter ++ added) :
    entry.1.text ≠ "authorization".toList := by
  intro heq
  rcases List.mem_append.mp hentry with hentry | hentry
  · refine hbase entry.1 ?_ (HeaderMap.mem_names_iff.mpr ⟨entry.2, hentry⟩)
    rw [heq]
    decide
  · have hmem : entry.1.text ∈ added.map fun entry => entry.1.text :=
      List.mem_map.mpr ⟨entry, hentry, rfl⟩
    rw [← hadded.names, heq] at hmem
    revert hmem
    cases token with
    | none =>
        simp only [Option.map_none, Option.toList_none, List.map_cons,
          List.map_nil, List.mem_singleton]
        decide
    | some token =>
        simp only [Option.map_some, Option.toList_some, List.map_cons,
          List.map_nil, List.mem_cons,
          List.not_mem_nil, or_false]
        decide

end Entries

variable {grammar : UriGrammar} {input method payloadHash region bucket : Str}
  {endpoint : Endpoint}
  {key : Option Str} {style : AddressingStyle} {url target : EndpointUrl}
  {query : List QueryParam}
  {env : SigningEnv} {callerHeaders : HeaderMap} {body : Option PreparedBody}
  {wire : HttpRequest}

/-- **The service recomputes the text that was signed**, whatever the target,
the query, the headers of the caller, the body, the credentials, the region and
the time: the canonical request read from the returned HTTP request alone is,
character by character, the one the signature in its `authorization` covers, and
`SignedHeaders` names every header of the request but that one. -/
theorem signedRequest_recomputes
    (hendpoint : Endpoint.new grammar input = .ok endpoint)
    (hurl : endpoint.objectUrl grammar bucket key style = .ok url)
    (hquery : url.withQuery grammar (canonicalQuery query) = .ok target)
    (hwire : (signedRequest crypto env
      ⟨method, target, query, callerHeaders, body, payloadHash, region⟩).1 =
        .ok wire) :
    ∃ credentials signedList canonical text authorization names,
      env.credentials = .ok credentials ∧
      canonicalRequest credentials.signing
        ⟨method, pathOf target.pathAndQuery, query, signedList, payloadHash⟩
        (formatTimestamp env.timestamp).1 = .ok (canonical, text) ∧
      recomputed wire = some text ∧
      wire.headerText "authorization" = some authorization ∧
      authorization = authorizationOf crypto credentials.signing
        ⟨region, "s3"⟩ env.timestamp
        canonical.signed text ∧
      signedHeaderNames authorization = some names ∧
      ∀ name, name ∈ names ↔ name ≠ "authorization".toList ∧
      wire.headers.containsKey name = true := by
  obtain ⟨hheaders, hmethod, huri⟩ := signedRequest_ok hwire
  obtain ⟨base, credentials, owned, signed, hbase, hcredentials, howned,
      hsigned, hinsert⟩ :=
    signedHeaders_eq hheaders
  obtain ⟨canonical, text, hcommon, hreserved, hcanonical, hsigned_eq⟩ :=
    signHeaders_ok hsigned
  have hnotMem : ∀ name : HeaderName, name.text ∈ reservedHeaders →
      name ∉ base.entries.map Prod.fst :=
    fun name hname => not_mem_of_rejectReserved howned hreserved hname
  obtain ⟨authorization, added, hauthorization, hiter, hget, hpayload,
      hadded⟩ :=
    insertSignature_iter hinsert hnotMem
  have hcanonicalHeaders : canonicalHeaders
      (signedHeaderList credentials.signing owned
          (formatTimestamp env.timestamp).1) = .ok canonical :=
    (canonicalRequest_ok hcanonical).1
  obtain ⟨ordered, hordered, hne, hclean, hrender⟩ :=
    canonicalHeaders_ok hcanonicalHeaders
  -- the signed list is what the map was read as, the date and the token
  have hread : ReadAs (base.iter ++ added)
      (signedHeaderList credentials.signing owned
          (formatTimestamp env.timestamp).1) := by
    rw [hsigned_eq] at hadded
    exact (ownedHeaders_ok howned).append hadded
  have hnot :
      ∀ entry ∈ base.iter ++ added, entry.1.text ≠ "authorization".toList :=
    fun entry hentry => not_authorization hnotMem hadded hentry
  have hauthorizationText :
      wire.headerText "authorization" = some (authorizationOf crypto
      credentials.signing
          ⟨region, "s3"⟩ env.timestamp canonical.signed text) := by
    unfold HttpRequest.headerText
    rw [hget, Option.bind_some, hauthorization, Lib.utf8Decode_utf8, hsigned_eq]
    rfl
  have hnames :
      signedHeaderNames
        (authorizationOf crypto credentials.signing ⟨region, "s3"⟩ env.timestamp
      canonical.signed text) = some (ordered.map Prod.fst) := by
    rw [hrender]
    exact signedHeaderNames_authorizationOf hcommon hne hclean
  refine ⟨credentials, owned, canonical, text, _, ordered.map Prod.fst,
    hcredentials, hcanonical, ?_,
    hauthorizationText, rfl, hnames,
      mem_signed_iff_containsKey hiter hread hordered hnot⟩
  obtain ⟨hpath, hqueryText⟩ :=
    wireTarget (Endpoint.objectUrl_target (Endpoint.new_valid hendpoint) hurl).1
      hquery
  obtain ⟨sorted, hsorted, hcanonicalQuery⟩ := wireQuery_canonicalQuery query
  obtain ⟨payload, hpayloadGet, hpayloadBytes⟩ := unsignedHeaders_payload hbase
  have hpayloadText :
      wire.headerText "x-amz-content-sha256" = some payloadHash := by
    unfold HttpRequest.headerText
    rw [hpayload, hpayloadGet, Option.bind_some, hpayloadBytes,
      Lib.utf8Decode_utf8]
  have hsame :
      buildCanonicalRequest method
        (pathOf target.pathAndQuery) sorted canonical payloadHash =
      .ok text := by
    rw [← (canonicalRequest_ok hcanonical).2]
    unfold buildCanonicalRequest
    rw [hcanonicalQuery]
    rfl
  have hwireHeaders := wireHeaders_signed hiter hread hordered hnot
  unfold recomputed
  simp only [hauthorizationText, hnames, huri, hmethod, hqueryText, hpath,
    hsorted, hwireHeaders,
    hcanonicalHeaders, hpayloadText, hsame, Option.bind_eq_bind,
      Option.bind_some, Except.toOption]

end Views

/-! A listing of a bucket with temporary credentials. -/

def sampleEndpoint : Endpoint := Endpoint.atHost "s3.us-east-1.amazonaws.com"

def sampleTarget (pathAndQuery : Str) : EndpointUrl :=
  ⟨"https://s3.us-east-1.amazonaws.com".toList ++ pathAndQuery, "https",
    "s3.us-east-1.amazonaws.com",
    pathAndQuery⟩

def sampleCredentials : Credentials :=
  ⟨"AKID", "secret", some "token", none, by decide, by decide, by decide⟩

def sampleSigningEnv : SigningEnv :=
  ⟨.ok sampleCredentials, 0, ⟨2024, 1, 2, 3, 4, 5⟩, none⟩

def sampleRequest : SignedRequestInput :=
  ⟨"GET", sampleTarget "/bucket?list-type=2", [⟨"list-type", "2"⟩],
    HeaderMap.new, none, unsignedPayload,
    "us-east-1"⟩

theorem headerValue_of {s : Str} {message : String}
    (h : (Lib.utf8 s).all isHeaderValueByte = true) :
    ∃ value, headerValue s message = .ok value :=
  ⟨⟨_, h⟩, by rw [headerValue, HeaderValue.fromStr, dif_pos h]⟩

/-- The signature of a request is one of digits, so it makes a header of the
fixed text before it. -/
theorem headerValue_hexEncode {s : Str} {message : String}
    (h : (Lib.utf8 s).all isHeaderValueByte = true) (bytes : Bytes) :
    ∃ value, headerValue (s ++ hexEncode bytes) message = .ok value := by
  have hdigit : ∀ n < 16, (lowerHexDigit n).toNat ≤ 127 ∧
      isHeaderValueByte (UInt8.ofNat (lowerHexDigit n).toNat) = true := by
        decide
  have hchar : ∀ c ∈ hexEncode bytes, c.toNat ≤ 127 ∧
      isHeaderValueByte (UInt8.ofNat c.toNat) = true :=
    forall_mem_hexEncode
      (P := fun c => c.toNat ≤ 127 ∧ isHeaderValueByte (UInt8.ofNat c.toNat) =
        true) hdigit bytes
  have hhex : (Lib.utf8 (hexEncode bytes)).all isHeaderValueByte = true := by
    rw [utf8_ascii fun c hc => (hchar c hc).1, List.all_eq_true]
    intro b hb
    obtain ⟨c, hc, rfl⟩ := List.mem_map.mp hb
    exact (hchar c hc).2
  have hvalid : (Lib.utf8 (s ++ hexEncode bytes)).all isHeaderValueByte =
      true := by
    rw [Lib.utf8_append, List.all_append, h, hhex, Bool.and_self]
  exact headerValue_of hvalid

theorem insertSignature_of {base : HeaderMap} {signed : HeaderSigningOutput}
    (hauthorization : ∃ value,
      headerValue signed.authorization
        "generated authorization header is invalid" =
      .ok value)
    (hdate : ∃ value,
      headerValue signed.amzDate "generated signing date is invalid" =
        .ok value)
    (htoken : ∀ token, signed.securityToken = some token →
      ∃ value, headerValue token "generated session token header is invalid" =
        .ok value) :
    ∃ headers, insertSignature base signed = .ok headers := by
  obtain ⟨authorization, hauthorization⟩ := hauthorization
  obtain ⟨date, hdate⟩ := hdate
  unfold insertSignature
  simp only [hauthorization, hdate, bind, Except.bind]
  cases hsecurity : signed.securityToken with
  | none => exact ⟨_, rfl⟩
  | some token =>
      obtain ⟨value, hvalue⟩ := htoken token hsecurity
      simp only [hvalue]
      exact ⟨_, rfl⟩

theorem authorizationHeader_eq (accessKeyId scope names signature : Str) :
    authorizationHeader accessKeyId scope names signature =
      algorithm ++ " Credential=".toList ++ accessKeyId ++
      '/' :: (scope ++ ", SignedHeaders=".toList ++ names ++
        ", Signature=".toList) ++ signature := by
  simp only [authorizationHeader, List.append_assoc, List.cons_append]

/-- What is left to check of a request without a body once its canonical form is
known: the hash enters it only through the digits of the signature. -/
theorem signedRequest_of_checks {crypto : Crypto} {env : SigningEnv}
    {input : SignedRequestInput} {credentials : Credentials} {base : HeaderMap}
    {owned : List Header} {canonical : CanonicalHeaders} {text : Str}
    (hbody : input.body = none) (hbase : unsignedHeaders input = .ok base)
    (hcredentials : env.credentials = .ok credentials)
    (hfresh : credentials.expiresBy env.now = false)
    (howned : ownedHeaders base = .ok owned)
    (hcommon : validateCommon credentials.signing input.scope input.method =
      .ok ())
    (hpayload : validatePayloadHash input.payloadHash = .ok ())
    (hreserved : rejectReservedHeaders owned = .ok ())
    (hcanonical :
    canonicalRequest credentials.signing (input.signingRequest owned)
      (formatTimestamp env.timestamp).1 = .ok (canonical, text))
    (hpreamble :
    (Lib.utf8
      (algorithm ++ " Credential=".toList ++ credentials.signing.accessKeyId ++
      '/' :: (credentialScope (formatTimestamp env.timestamp).2 input.scope ++
        ", SignedHeaders=".toList ++ canonical.signed ++
          ", Signature=".toList))).all isHeaderValueByte = true)
    (hdate :
    (Lib.utf8 (formatTimestamp env.timestamp).1).all isHeaderValueByte = true)
    (htoken : ∀ token, credentials.sessionToken = some token →
      (Lib.utf8 token).all isHeaderValueByte = true) :
    ∃ request, signedRequest crypto env input = (.ok request, none) := by
  have hsigned :=
    @signHeaders_of_checks crypto _ _
      (input.signingRequest owned) env.timestamp _ _ hcommon
    hpayload hreserved hcanonical
  rw [authorizationHeader_eq] at hsigned
  have hinsert : ∃ headers, signedHeaders crypto env input = .ok headers := by
    rw [signedHeaders_of hbase hcredentials hfresh howned hsigned]
    exact insertSignature_of (headerValue_hexEncode hpreamble _)
      (headerValue_of hdate)
      fun token htoken_eq => headerValue_of (htoken token htoken_eq)
  obtain ⟨headers, hheaders⟩ := hinsert
  refine ⟨⟨input.method, input.target.serialized, headers,
    TransportBody.empty crypto.sha⟩, ?_⟩
  rw [signedRequest, hheaders, hbody]

def sampleBase : HeaderMap :=
  (HeaderMap.new.insert .host
    ⟨Lib.utf8 "s3.us-east-1.amazonaws.com".toList, by decide⟩).insert
    .amzContentSha256 ⟨Lib.utf8 unsignedPayload, by decide⟩

def sampleOwned : List Header :=
  [⟨"host", "s3.us-east-1.amazonaws.com"⟩,
    ⟨"x-amz-content-sha256", unsignedPayload⟩]

def sampleNames : Str :=
  "host;x-amz-content-sha256;x-amz-date;x-amz-security-token"

def sampleCanonical : CanonicalHeaders where
  canonical :=
    "host:s3.us-east-1.amazonaws.com\nx-amz-content-sha256:UNSIGNED-PAYLOAD\n".toList ++
    "x-amz-date:20240102T030405Z\nx-amz-security-token:token\n".toList
  signed := sampleNames

def sampleText : Str :=
  "GET\n/bucket\nlist-type=2\n".toList ++ sampleCanonical.canonical ++ '\n' ::
    (sampleNames ++ '\n' :: unsignedPayload)

theorem sampleCanonical_eq : canonicalRequest sampleCredentials.signing
    (sampleRequest.signingRequest sampleOwned)
      (formatTimestamp sampleSigningEnv.timestamp).1 =
      .ok (sampleCanonical, sampleText) := by
  decide +kernel

theorem sampleRequest_signs (crypto : Crypto) :
    ∃ wire, (signedRequest crypto sampleSigningEnv sampleRequest).1 =
      .ok wire := by
  have hbase : unsignedHeaders sampleRequest = .ok sampleBase := rfl
  have howned : ownedHeaders sampleBase = .ok sampleOwned := rfl
  have hpreamble :
      (Lib.utf8
        (algorithm ++ " Credential=".toList ++
          sampleCredentials.signing.accessKeyId ++
      '/' :: (credentialScope
        (formatTimestamp sampleSigningEnv.timestamp).2 sampleRequest.scope ++
        ", SignedHeaders=".toList ++ sampleCanonical.signed ++
          ", Signature=".toList))).all
          isHeaderValueByte = true := by
    decide +kernel
  have htoken : ∀ token, sampleCredentials.sessionToken = some token →
      (Lib.utf8 token).all isHeaderValueByte = true := by
    intro token htoken
    cases htoken
    decide
  obtain ⟨wire, hwire⟩ :=
    @signedRequest_of_checks crypto _ sampleRequest _ _ _ _ _ rfl hbase rfl
      (by decide)
    howned (by decide) (by decide) (by decide) sampleCanonical_eq hpreamble
      (by decide) htoken
  exact ⟨wire, congrArg Prod.fst hwire⟩

theorem signedRequest_recomputes_listing :
    ∃ wire text,
      (signedRequest standardCrypto sampleSigningEnv sampleRequest).1 =
        .ok wire ∧
      recomputed wire = some text := by
  have hendpoint :
    Endpoint.new permissive "https://s3.us-east-1.amazonaws.com" =
      .ok sampleEndpoint := rfl
  have hurl : sampleEndpoint.objectUrl permissive "bucket" none .path =
    .ok (sampleTarget "/bucket") := rfl
  have hquery :
      (sampleTarget "/bucket").withQuery permissive
        (canonicalQuery [⟨"list-type", "2"⟩]) =
      .ok (sampleTarget "/bucket?list-type=2") := rfl
  obtain ⟨wire, hwire⟩ := sampleRequest_signs standardCrypto
  obtain ⟨_, _, _, text, _, _, _, _, hrecomputed, -⟩ :=
    signedRequest_recomputes hendpoint hurl hquery hwire
  exact ⟨wire, text, hwire, hrecomputed⟩

end S3Wire
