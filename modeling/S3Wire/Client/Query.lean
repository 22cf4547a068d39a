/-
# `S3Wire.Client.Query` — the query as it goes over the wire

`canonical_query` of `src/signing/canonical.rs` with `EndpointUrl::with_query`
of `src/endpoint/mod.rs`.  One text is both signed and sent; what the service
makes of it is `wireQuery`: cut at `&`, cut at `=`, decode.
`wireQuery_canonicalQuery` says that reading and writing again gives the same
text, `canonicalQuery_invariant` that the text and the multiset of parameters
determine each other, and `Components` what the text looks like in between.
-/
import S3Wire.Endpoint
import S3Wire.Lib.Fallible

namespace S3Wire

/-! ## Reading a query back -/

/-- A name or a value as it was before it was encoded. -/
def decodeText (s : Str) : Option Str :=
  (Lib.percentDecode s).bind Lib.utf8Decode

/-- One field of a query; a field without `=` is a name. -/
def wireParam (field : Str) : Option QueryParam := do
  let (name, value) := (Lib.splitOnce '=' field).getD (field, [])
  return ⟨← decodeText name, ← decodeText value⟩

/-- The parameters of a query that arrives. -/
def wireQuery (query : Str) : Option (List QueryParam) :=
  if query.isEmpty then some [] else (query.splitOn '&').mapM wireParam

/-- The fields of a query. -/
def queryFields (query : Str) : List Str :=
  if query.isEmpty then [] else query.splitOn '&'

/-- A field taken apart. -/
def decodePair (pair : Str × Str) : Option QueryParam := do
  return ⟨← decodeText pair.1, ← decodeText pair.2⟩

/-- `Ord` of a pair of strings: by the octets of the name, then of the value. -/
def octetsLe (p q : Str × Str) : Prop :=
  toLex (Lib.octets p.1, Lib.octets p.2) ≤
    toLex (Lib.octets q.1, Lib.octets q.2)

/-- What the query of these parameters consists of: one field for each of them,
with one `=`, in order, and decoded they are the parameters. -/
structure Components (parameters : List QueryParam) (pairs : List (Str × Str)) :
    Prop where
  fields : queryFields (canonicalQuery parameters) = pairs.map queryField
  count : pairs.length = parameters.length
  separated : ∀ pair ∈ pairs, '=' ∉ pair.1 ∧ '=' ∉ pair.2
  ordered : pairs.Pairwise octetsLe
  decoded : (pairs.map decodePair).Perm (parameters.map some)

/-! ## The query -/

theorem decodeText_encode (s : Str) :
    decodeText (awsUriEncode s true) = some s := by
  rw [decodeText, awsUriEncode, if_pos rfl,
    Lib.percentDecode_encode unreserved_safe, Option.bind_some,
    Lib.utf8Decode_utf8]

theorem wireParam_queryField (parameter : QueryParam) :
    wireParam (queryField (encodeParam parameter)) = some parameter := by
  have heq : '=' ∉ awsUriEncode parameter.name true :=
    not_mem_awsUriEncode (by decide)
  have hsplit : Lib.splitOnce '=' (queryField (encodeParam parameter)) =
      some (awsUriEncode parameter.name true,
          awsUriEncode parameter.value true) :=
    Lib.splitOnce_append _ heq
  simp [wireParam, hsplit, decodeText_encode]

theorem exists_sorted (parameters : List QueryParam) :
    ∃ sorted : List QueryParam, sorted.map encodeParam =
      encodedQuery parameters := by
  have hmem : ∀ pair ∈ encodedQuery parameters,
      pair ∈ Set.range encodeParam := by
    intro pair hpair
    obtain ⟨parameter, -, rfl⟩ :=
      List.mem_map.mp ((encodedQuery_perm parameters).subset hpair)
    exact ⟨parameter, rfl⟩
  rw [← Set.mem_range, Set.range_list_map]
  exact hmem

theorem wireQuery_fields {parameters : List QueryParam}
    (hne : parameters ≠ []) :
    wireQuery
      (['&'].intercalate ((parameters.map encodeParam).map queryField)) =
        some parameters := by
  have hamp : ∀ field ∈ (parameters.map encodeParam).map queryField,
      '&' ∉ field := by
    intro field hfield
    rw [List.map_map] at hfield
    obtain ⟨parameter, -, rfl⟩ := List.mem_map.mp hfield
    have hname : '&' ∉ awsUriEncode parameter.name true :=
      not_mem_awsUriEncode (by decide)
    have hvalue : '&' ∉ awsUriEncode parameter.value true :=
      not_mem_awsUriEncode (by decide)
    simp [queryField, encodeParam, hname, hvalue]
  have hsplit := List.splitOn_intercalate '&' hamp (by simpa using hne)
  unfold wireQuery
  split
  · next hempty =>
      -- a field has its `=`, so that the text is not empty
      rw [List.isEmpty_iff.mp hempty, List.splitOn_eq_splitOnP,
        List.splitOnP_nil] at hsplit
      obtain ⟨parameter, rest, rfl⟩ := List.exists_cons_of_ne_nil hne
      simp [queryField] at hsplit
  · rw [hsplit, List.map_map]
    refine Lib.mapM_some ?_
    rw [List.forall₂_map_left_iff]
    exact List.forall₂_same.mpr fun parameter _ =>
      wireParam_queryField parameter

/-- The query that was written is read as parameters with the same canonical
query. -/
theorem wireQuery_canonicalQuery (parameters : List QueryParam) :
    ∃ sorted, wireQuery (canonicalQuery parameters) = some sorted ∧
      canonicalQuery sorted = canonicalQuery parameters := by
  obtain ⟨sorted, hsorted⟩ := exists_sorted parameters
  -- what is in order already is left as it is
  have hcanonical : canonicalQuery sorted = canonicalQuery parameters := by
    unfold canonicalQuery
    have hordered : (encodedQuery parameters).Pairwise encodedLe :=
      List.pairwise_insertionSort _ _
    rw [encodedQuery, hsorted, hordered.insertionSort_eq]
  refine ⟨sorted, ?_, hcanonical⟩
  by_cases hnil : sorted = []
  · subst hnil
    rw [← hcanonical]
    rfl
  · rw [canonicalQuery, ← hsorted]
    exact wireQuery_fields hnil

/-! ## The components -/

section Components

variable {parameters parameters' : List QueryParam}

theorem isEncodedChar_ascii {c : Char} (h : isEncodedChar c = true) :
    c.toNat ≤ 127 := by
  simp only [isEncodedChar, isCharOf, Bool.or_eq_true, Bool.and_eq_true,
    decide_eq_true_eq,
    beq_iff_eq] at h
  rcases h with ⟨hascii, -⟩ | rfl
  · exact hascii
  · decide

/-- Encoded texts are in the order of their characters when they are in that of
their octets. -/
theorem octets_awsUriEncode_le {s t : Str} :
    Lib.octets (awsUriEncode s true) ≤ Lib.octets (awsUriEncode t true) ↔
      awsUriEncode s true ≤ awsUriEncode t true :=
  Lib.octets_le (fun _ hc => isEncodedChar_ascii (mem_awsUriEncode hc))
    fun _ hc => isEncodedChar_ascii (mem_awsUriEncode hc)

theorem octetsLe_encodeParam {p q : QueryParam}
    (h : encodedLe (encodeParam p) (encodeParam q)) :
    octetsLe (encodeParam p) (encodeParam q) := by
  rw [encodedLe, Prod.Lex.toLex_le_toLex] at h
  rw [octetsLe, Prod.Lex.toLex_le_toLex]
  rcases h with hname | ⟨hname, hvalue⟩
  · exact Or.inl
      (lt_of_not_ge fun hle =>
        absurd (octets_awsUriEncode_le.mp hle) (not_le.mpr hname))
  · exact Or.inr ⟨congrArg Lib.octets hname, octets_awsUriEncode_le.mpr hvalue⟩

theorem encodedQuery_ordered (parameters : List QueryParam) :
    (encodedQuery parameters).Pairwise encodedLe :=
  List.pairwise_insertionSort _ _

theorem encodedQuery_of_perm (h : parameters.Perm parameters') :
    encodedQuery parameters = encodedQuery parameters' := by
  have hperm : (encodedQuery parameters).Perm (encodedQuery parameters') :=
    (encodedQuery_perm parameters).trans <|
      (h.map encodeParam).trans (encodedQuery_perm parameters').symm
  refine hperm.eq_of_pairwise ?_ (encodedQuery_ordered _)
    (encodedQuery_ordered _)
  intro p q _ _ hpq hqp
  exact toLex.injective (le_antisymm hpq hqp)

theorem canonicalQuery_eq_nil_iff : canonicalQuery parameters = [] ↔
    parameters = [] := by
  constructor
  · intro h
    have hperm := encodedQuery_perm parameters
    rw [canonicalQuery_eq_nil h] at hperm
    exact List.map_eq_nil_iff.mp hperm.symm.eq_nil
  · rintro rfl
    rfl

/-- The fields are the encoded pairs, whatever is in them. -/
theorem queryFields_canonicalQuery (parameters : List QueryParam) :
    queryFields (canonicalQuery parameters) =
      (encodedQuery parameters).map queryField := by
  unfold queryFields
  split
  · next hempty =>
      rw [canonicalQuery_eq_nil (List.isEmpty_iff.mp hempty), List.map_nil]
  · next hempty =>
      refine List.splitOn_intercalate '&' ?_ ?_
      · intro field hfield
        obtain ⟨pair, hpair, rfl⟩ := List.mem_map.mp hfield
        exact not_mem_queryField hpair (by decide) (by decide)
      · intro hnil
        exact hempty (by simp [canonicalQuery, hnil])

theorem decodePair_encodeParam (parameter : QueryParam) :
    decodePair (encodeParam parameter) = some parameter := by
  simp [decodePair, encodeParam, decodeText_encode]

theorem encodedQuery_components (parameters : List QueryParam) :
    Components parameters (encodedQuery parameters) where
  fields := queryFields_canonicalQuery parameters
  count := by rw [(encodedQuery_perm parameters).length_eq, List.length_map]
  separated := by
    intro pair hpair
    exact not_mem_encoded hpair (by decide)
  ordered := by
    obtain ⟨sorted, hsorted⟩ := exists_sorted parameters
    have hordered := encodedQuery_ordered parameters
    rw [← hsorted, List.pairwise_map] at hordered ⊢
    exact hordered.imp octetsLe_encodeParam
  decoded := by
    have hdecode :
        (parameters.map encodeParam).map decodePair = parameters.map some := by
      rw [List.map_map]
      exact List.map_congr_left fun parameter _ =>
        decodePair_encodeParam parameter
    rw [← hdecode]
    exact (encodedQuery_perm parameters).map decodePair

end Components

/-! ## The target -/

theorem pathOf_append_query {path query : Str} (h : '?' ∉ path) :
    pathOf (path ++ '?' :: query) = path ∧
    queryOf (path ++ '?' :: query) = some query := by
  refine ⟨Lib.beforeFirst_append query h, ?_⟩
  rw [queryOf, Lib.splitOnce_append query h]
  rfl

theorem queryOf_withQuery {grammar : UriGrammar} {url target : EndpointUrl}
    {query : Str} (h : url.withQuery grammar query = .ok target) :
    (queryOf target.pathAndQuery).getD [] = query := by
  obtain ⟨-, hparts⟩ := EndpointUrl.withQuery_eq h
  obtain ⟨rfl, -⟩ := EndpointUrl.fromParts_eq hparts
  have hplain : '?' ∉ pathOf url.pathAndQuery := Lib.not_mem_beforeFirst _ _
  simp only
  split
  · next hempty =>
      rw [queryOf, Lib.splitOnce_eq_none hplain, List.isEmpty_iff.mp hempty]
      rfl
  · rw [(pathOf_append_query hplain).2]
    rfl

theorem wireTarget {grammar : UriGrammar} {url target : EndpointUrl}
    {query : Str} (hurl : url.Target)
    (h : url.withQuery grammar query = .ok target) :
    (splitUri target.serialized).path = pathOf target.pathAndQuery ∧
      (queryOf (splitUri target.serialized).pathAndQuery).getD [] = query := by
  have htarget := hurl.withQuery h
  rw [splitUri_serialized htarget]
  refine ⟨?_, queryOf_withQuery h⟩
  have hrooted := pathOf_rooted htarget.rooted
  unfold Uri.path
  cases hpath : pathOf target.pathAndQuery with
  | nil => simp [hpath] at hrooted
  | cons c rest => simp

theorem EndpointUrl.withQuery_canonicalQuery (grammar : UriGrammar)
    (url : EndpointUrl) (parameters : List QueryParam) :
    url.withQuery grammar (canonicalQuery parameters) =
      fromParts grammar url.scheme url.authority
        (if parameters = [] then pathOf url.pathAndQuery
          else pathOf url.pathAndQuery ++
            '?' :: canonicalQuery parameters) := by
  have hquestion : '?' ∉ canonicalQuery parameters :=
    not_mem_canonicalQuery (by decide) (by decide) (by decide)
  have hhash : '#' ∉ canonicalQuery parameters :=
    not_mem_canonicalQuery (by decide) (by decide) (by decide)
  have hempty : (canonicalQuery parameters).isEmpty = true ↔
      parameters = [] := by
    rw [List.isEmpty_iff, canonicalQuery_eq_nil_iff]
  unfold withQuery
  rw [if_neg]
  · simp only [hempty]
  · rintro (hhead | hmem)
    · exact hquestion (List.mem_of_mem_head? hhead)
    · exact hhash hmem

/-- What is read back from the wire has the multiset of what was written. -/
theorem wireQuery_perm (parameters : List QueryParam) :
    ∃ sorted, wireQuery (canonicalQuery parameters) = some sorted ∧
    sorted.Perm parameters := by
  obtain ⟨sorted, hread, hcanonical⟩ := wireQuery_canonicalQuery parameters
  exact ⟨sorted, hread, canonicalQuery_inj hcanonical⟩

/-- **A canonical query is a complete invariant of the multiset of parameters.**
It has one component for each parameter and none of the characters that mean
something else in a URI, so it is never refused for them, and the URL it is put
into, read back part by part or from its text, gives the multiset again. -/
theorem canonicalQuery_invariant :
    (∀ a b : List QueryParam, canonicalQuery a = canonicalQuery b ↔ a.Perm b) ∧
    (∀ parameters, canonicalQuery parameters = [] ↔ parameters = []) ∧
    (∀ parameters, ∃ pairs, Components parameters pairs) ∧
    (∀ parameters, ∀ c ∈ canonicalQuery parameters,
      c ∉ ['?', '#', '+', '/', ' ']) ∧
    (∀ (grammar : UriGrammar) (url : EndpointUrl) (parameters : List QueryParam),
      url.withQuery grammar (canonicalQuery parameters) =
        EndpointUrl.fromParts grammar url.scheme url.authority
          (if parameters = [] then pathOf url.pathAndQuery
            else pathOf url.pathAndQuery ++ '?' :: canonicalQuery parameters)) ∧
    ∀ (grammar : UriGrammar) (url target : EndpointUrl) (parameters : List QueryParam),
      url.withQuery grammar (canonicalQuery parameters) = .ok target →
      ∃ sorted : List QueryParam, sorted.Perm parameters ∧
        wireQuery ((queryOf target.pathAndQuery).getD []) = some sorted ∧
        (url.Target →
          wireQuery
            ((queryOf (splitUri target.serialized).pathAndQuery).getD []) =
              some sorted) := by
  refine ⟨?_, fun _ => canonicalQuery_eq_nil_iff, ?_, ?_,
    EndpointUrl.withQuery_canonicalQuery, ?_⟩
  · intro a b
    constructor
    · exact canonicalQuery_inj
    · intro hperm
      rw [canonicalQuery, encodedQuery_of_perm hperm, canonicalQuery]
  · exact fun parameters => ⟨_, encodedQuery_components parameters⟩
  · intro parameters c hc hmem
    refine not_mem_canonicalQuery (c := c) ?_ ?_ ?_ hc
    all_goals
      simp only [List.mem_cons, List.not_mem_nil, or_false] at hmem
      rcases hmem with rfl | rfl | rfl | rfl | rfl <;> decide
  · intro grammar url target parameters htarget
    obtain ⟨sorted, hread, hperm⟩ := wireQuery_perm parameters
    refine ⟨sorted, hperm, ?_, ?_⟩
    · rw [queryOf_withQuery htarget, hread]
    · intro hurl
      rw [(wireTarget hurl htarget).2, hread]

/-- A space, a plus sign and an empty value, and one parameter twice. -/
def repeatedParams : List QueryParam := [⟨"b", "+ "⟩, ⟨"a", ""⟩, ⟨"b", "+ "⟩]

theorem repeatedParams_query :
    canonicalQuery repeatedParams = "a=&b=%2B%20&b=%2B%20".toList := by
  decide +kernel

def queriedUrl (pathAndQuery : Str) : EndpointUrl :=
  ⟨"https://s3.test".toList ++ pathAndQuery, "https", "s3.test", pathAndQuery⟩

theorem queriedUrl_target : (queriedUrl "/data").Target := by
  have hauthority : "s3.test".toList.all (fun c => !isAuthorityEnd c) =
    true := by decide
  refine ⟨rfl, Or.inr rfl, fun c hc => ?_, rfl, by decide⟩
  simpa using List.all_eq_true.mp hauthority c hc

/-- The parameters are put into a URL, which is read back by its parts and by
its text. -/
theorem canonicalQuery_invariant_repeated : ∃ sorted : List QueryParam,
    (queriedUrl "/data").withQuery ⟨fun _ => true, fun _ => true⟩
      (canonicalQuery repeatedParams) =
      .ok (queriedUrl "/data?a=&b=%2B%20&b=%2B%20") ∧
    sorted.Perm repeatedParams ∧
    wireQuery "a=&b=%2B%20&b=%2B%20" = some sorted ∧
    wireQuery
      ((queryOf
        (splitUri
          "https://s3.test/data?a=&b=%2B%20&b=%2B%20").pathAndQuery).getD [])
      = some sorted := by
  have hquery : (queriedUrl "/data").withQuery ⟨fun _ => true, fun _ => true⟩
      (canonicalQuery repeatedParams) =
          .ok (queriedUrl "/data?a=&b=%2B%20&b=%2B%20") := by
    rw [repeatedParams_query]
    rfl
  obtain ⟨-, -, -, -, -, hread⟩ := canonicalQuery_invariant
  obtain ⟨sorted, hperm, hparts, htext⟩ := hread _ _ _ _ hquery
  exact ⟨sorted, hquery, hperm, hparts, htext queriedUrl_target⟩

end S3Wire
