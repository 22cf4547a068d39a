/-
# `S3Wire.Client.Operation.Metadata` — one metadata map, written by two loops

`insert_user_metadata` serves the single PUT, and `create_headers` ends in a
loop of its own.  The second is the first after one more check, that no name is
empty (`insertUploadMetadata_eq_ok`); neither asks more of the map than that its
entries are headers with names that differ (`Storable`).  So the two agree on
every map but those that only the check refuses.
-/
import S3Wire.Client.Operation.Headers

namespace S3Wire

/-! ## Metadata in a header map -/

def isMetadataName (text : Str) : Bool := "x-amz-meta-".toList.isPrefixOf text

/-- The headers of a map that are user metadata. -/
def HeaderMap.userMetadata (m : HeaderMap) :
    List (HeaderName × List HeaderValue) :=
  m.entries.filter fun e => isMetadataName e.1.text

section Map

variable {m : HeaderMap} {name : HeaderName} {value : HeaderValue}

theorem insertEntry_new : ∀ {entries : List (HeaderName × List HeaderValue)},
    (entries.any fun e => e.1.text == name.text) = false →
    insertEntry name value entries = entries ++ [(name, [value])]
  | [], _ => rfl
  | (n, vs) :: entries, h => by
      rw [List.any_cons, Bool.or_eq_false_iff] at h
      have hn : n ≠ name := by
        rintro rfl
        exact absurd rfl (beq_eq_false_iff_ne.mp h.1)
      rw [insertEntry, if_neg hn, insertEntry_new h.2, List.cons_append]

theorem userMetadata_insert (hfree : m.containsKey name.text = false) :
    (m.insert name value).userMetadata =
      m.userMetadata ++ if isMetadataName name.text then
        [(name, [value])] else [] := by
  show (insertEntry name value m.entries).filter _ = _
  rw [insertEntry_new hfree, List.filter_append, HeaderMap.userMetadata,
    List.filter_singleton]
  cases isMetadataName name.text <;> rfl

theorem containsKey_of_userMetadata {text : Str} (h : m.userMetadata = [])
    (htext : isMetadataName text = true) :
    m.containsKey text = false := by
  rw [HeaderMap.containsKey, List.any_eq_false]
  intro e he heq
  have hnot := List.filter_eq_nil_iff.mp h e he
  rw [eq_of_beq heq] at hnot
  exact hnot htext

end Map

/-! ## The entries of the map -/

/-- The name of the header of an entry. -/
def metadataKey (entry : Str × Str) : Str :=
  (metadataName entry.1).map Char.toLower

/-- The header of an entry, where it can have one. -/
def metadataHeader (entry : Str × Str) :
    Option (HeaderName × List HeaderValue) := do
  let name ← HeaderName.fromStr (metadataName entry.1)
  let value ← HeaderValue.fromStr entry.2
  return (name, [value])

/-- Every entry can be a header, and no two of them the same. -/
structure Storable (metadata : List (Str × Str)) : Prop where
  headers : ∀ entry ∈ metadata, (metadataHeader entry).isSome
  distinct : (metadata.map metadataKey).Nodup

section Loops

variable {headers headers' : HeaderMap} {metadata rest : List (Str × Str)}
  {entry : Str × Str}

theorem isMetadataName_key (entry : Str × Str) :
    isMetadataName (metadataKey entry) = true := by
  have hfolded :
    "x-amz-meta-".toList.map Char.toLower = "x-amz-meta-".toList := by decide
  show isMetadataName (("x-amz-meta-".toList ++ entry.1).map Char.toLower) =
    true
  rw [List.map_append, hfolded]
  exact List.isPrefixOf_iff_prefix.mpr (List.prefix_append _ _)

theorem insertHeader_eq_ok {name : HeaderName} {value : Str} :
    insertHeader headers name value = .ok headers' ↔
    headers.containsKey name.text = false ∧
      ∃ v, HeaderValue.fromStr value = some v ∧
      headers' = headers.insert name v := by
  constructor
  · exact insertHeader_ok
  · rintro ⟨hfree, v, hv, rfl⟩
    rw [insertHeader, hfree, if_neg Bool.false_ne_true, hv]

theorem insertNamedHeader_eq_ok :
    insertNamedHeader headers (metadataName entry.1) entry.2 = .ok headers' ↔
    ∃ name value, metadataHeader entry = some (name, [value]) ∧
    name.text = metadataKey entry ∧
      headers.containsKey (metadataKey entry) = false ∧
      headers' = headers.insert name value := by
  rw [insertNamedHeader, metadataHeader]
  cases hname : HeaderName.fromStr (metadataName entry.1) with
  | none =>
      constructor
      · intro h
        cases h
      · rintro ⟨_, _, h, -⟩
        cases h
  | some name =>
      dsimp only
      rw [insertHeader_eq_ok, HeaderName.fromStr_text hname]
      constructor
      · rintro ⟨hfree, value, hvalue, rfl⟩
        refine ⟨name, value, ?_, HeaderName.fromStr_text hname, hfree, rfl⟩
        rw [hvalue]
        rfl
      · rintro ⟨name', value, h, -, hfree, rfl⟩
        rw [Option.bind_eq_bind, Option.bind_some, Option.bind_eq_bind,
          Option.bind_eq_some_iff] at h
        obtain ⟨v, hv, h⟩ := h
        cases h
        exact ⟨hfree, value, hv, rfl⟩

/-- The entries are all there, one header each, behind what was there before. -/
theorem insertUserMetadata_entries :
    ∀ {metadata : List (Str × Str)} {headers : HeaderMap},
    insertUserMetadata headers metadata = .ok headers' →
    headers'.userMetadata.map some = headers.userMetadata.map some ++
      metadata.map metadataHeader
  | [], _, h => by
      cases h
      exact (List.append_nil _).symm
  | entry :: rest, headers, h => by
      obtain ⟨headers₁, h₁, h⟩ := Lib.bind_ok h
      obtain ⟨name, value, hheader, hname, hfree, rfl⟩ :=
        insertNamedHeader_eq_ok.mp h₁
      have hmetadata : isMetadataName name.text = true := by
        rw [hname]
        exact isMetadataName_key entry
      rw [insertUserMetadata_entries h, userMetadata_insert (hname ▸ hfree),
        if_pos hmetadata, List.map_append,
        List.append_assoc]
      show _ ++ some (name, [value]) :: rest.map metadataHeader =
        _ ++ metadataHeader entry :: rest.map metadataHeader
      rw [hheader]

/-- The loop succeeds if the entries can be headers, under names that differ and
are free. -/
theorem insertUserMetadata_succeeds :
    ∀ {metadata : List (Str × Str)} {headers : HeaderMap},
    (∃ headers', insertUserMetadata headers metadata = .ok headers') ↔
      Storable metadata ∧
      ∀ entry ∈ metadata, headers.containsKey (metadataKey entry) = false
  | [], headers => by
      refine iff_of_true ⟨headers, rfl⟩
        ⟨⟨List.forall_mem_nil _, List.nodup_nil⟩, List.forall_mem_nil _⟩
  | entry :: rest, headers => by
      constructor
      · rintro ⟨headers', h⟩
        obtain ⟨headers₁, h₁, h⟩ := Lib.bind_ok h
        obtain ⟨name, value, hheader, hname, hfree, rfl⟩ :=
          insertNamedHeader_eq_ok.mp h₁
        obtain ⟨⟨hheaders, hdistinct⟩, hrest⟩ :=
          insertUserMetadata_succeeds.mp ⟨headers', h⟩
        have hkept : ∀ e ∈ rest, metadataKey e ≠ metadataKey entry ∧
            headers.containsKey (metadataKey e) = false := by
          intro e he
          have hfree' := hrest e he
          rw [HeaderMap.containsKey_insert, Bool.or_eq_false_iff, hname]
            at hfree'
          exact ⟨beq_eq_false_iff_ne.mp hfree'.1, hfree'.2⟩
        refine ⟨⟨List.forall_mem_cons.mpr ⟨by rw [hheader]; rfl, hheaders⟩, ?_⟩,
          List.forall_mem_cons.mpr ⟨hfree, fun e he => (hkept e he).2⟩⟩
        rw [List.map_cons, List.nodup_cons]
        refine ⟨?_, hdistinct⟩
        intro hmem
        obtain ⟨e, he, hkey⟩ := List.mem_map.mp hmem
        exact (hkept e he).1 hkey
      · rintro ⟨⟨hheaders, hdistinct⟩, hfree⟩
        rw [List.map_cons, List.nodup_cons] at hdistinct
        obtain ⟨header, hheader⟩ :=
          Option.isSome_iff_exists.mp (hheaders entry (List.mem_cons_self ..))
        obtain ⟨name, hname, hvalue⟩ := Option.bind_eq_some_iff.mp hheader
        obtain ⟨value, hvalue, h⟩ := Option.bind_eq_some_iff.mp hvalue
        cases h
        have h₁ := insertNamedHeader_eq_ok.mpr
          ⟨name, value, hheader, HeaderName.fromStr_text hname,
            hfree entry (List.mem_cons_self ..), rfl⟩
        have hrest :
            ∀ e ∈ rest,
                (headers.insert name value).containsKey (metadataKey e) =
                    false := by
          intro e he
          rw [HeaderMap.containsKey_insert, hfree e (List.mem_cons_of_mem _ he),
            HeaderName.fromStr_text hname,
            Bool.or_false]
          refine beq_eq_false_iff_ne.mpr ?_
          intro hkey
          exact hdistinct.1 (List.mem_map.mpr ⟨e, he, hkey⟩)
        obtain ⟨headers', h⟩ := insertUserMetadata_succeeds.mpr
          ⟨⟨fun e he => hheaders e (List.mem_cons_of_mem _ he), hdistinct.2⟩,
            hrest⟩
        refine ⟨headers', ?_⟩
        rw [insertUserMetadata, h₁]
        exact h

/-- The loop of `create_headers` is `insert_user_metadata` for maps without an
empty name. -/
theorem insertUploadMetadata_eq_ok :
    ∀ {metadata : List (Str × Str)} {headers : HeaderMap},
    insertUploadMetadata headers metadata = .ok headers' ↔
      (∀ entry ∈ metadata, entry.1 ≠ []) ∧
      insertUserMetadata headers metadata = .ok headers'
  | [], headers => (and_iff_right (List.forall_mem_nil _)).symm
  | (name, value) :: rest, headers => by
      rw [List.forall_mem_cons, insertUploadMetadata, insertUserMetadata,
        insertNamedHeader]
      cases name with
      | nil =>
          constructor
          · intro h
            cases h
          · rintro ⟨⟨h, -⟩, -⟩
            exact absurd rfl h
      | cons c name =>
          rw [if_neg (by exact Bool.false_ne_true)]
          cases hname : HeaderName.fromStr (metadataName (c :: name)) with
          | none =>
              constructor
              · intro h
                cases h
              · rintro ⟨-, h⟩
                cases h
          | some headerName =>
              dsimp only
              cases insertHeader headers headerName value with
              | error e =>
                  constructor
                  · intro h
                    cases h
                  · rintro ⟨-, h⟩
                    cases h
              | ok headers₁ =>
                  refine insertUploadMetadata_eq_ok.trans ?_
                  exact and_congr_left'
                    (and_iff_right (List.cons_ne_nil c name)).symm

end Loops

/-! ## The two operations -/

section Operations

variable {headers headers' base : HeaderMap}
  {request : CreateMultipartUploadRequest} {metadata : List (Str × Str)}

/-- The headers of the request but for its metadata, and then the metadata. -/
theorem createHeaders_eq (request : CreateMultipartUploadRequest)
    (metadata : List (Str × Str)) :
    createHeaders { request with userMetadata := metadata } =
      createHeaders { request with userMetadata := [] } >>= fun headers =>
          insertUploadMetadata headers metadata := by
  rw [createHeaders, createHeaders]
  simp only [bind_assoc]
  rfl

theorem insertOptionalHeader_userMetadata {name : HeaderName}
    {value : Option Str} (hname : isMetadataName name.text = false)
    (h : insertOptionalHeader headers name value = .ok headers') :
    headers'.userMetadata = headers.userMetadata := by
  cases value with
  | none =>
      cases h
      rfl
  | some value =>
      obtain ⟨hfree, v, -, rfl⟩ := insertHeader_ok h
      rw [userMetadata_insert hfree, hname, if_neg Bool.false_ne_true,
        List.append_nil]

theorem createHeaders_userMetadata
    (hbase : createHeaders { request with userMetadata := [] } = .ok base) :
    base.userMetadata = request.headers.userMetadata := by
  obtain ⟨headers₀, hcaller, h⟩ := Lib.bind_ok hbase
  obtain ⟨rfl, -⟩ := requestHeaders_ok hcaller
  obtain ⟨headers₁, h₁, h⟩ := Lib.bind_ok h
  obtain ⟨headers₂, h₂, h⟩ := Lib.bind_ok h
  obtain ⟨headers₃, h₃, h⟩ := Lib.bind_ok h
  cases h
  rw [insertOptionalHeader_userMetadata (by decide) h₃,
    insertOptionalHeader_userMetadata (by decide) h₂,
    insertOptionalHeader_userMetadata (by decide) h₁]

/-- Two results for one map: both are errors, or both hold one header for each
of its entries, the same. -/
structure SameMetadata (metadata : List (Str × Str))
    (put create : Except S3Error HeaderMap) : Prop where
  accepted : (∃ headers, put = .ok headers) ↔ ∃ headers, create = .ok headers
  stored : ∀ headers headers', put = .ok headers → create = .ok headers' →
    headers.userMetadata = headers'.userMetadata ∧
      headers.userMetadata.map some = metadata.map metadataHeader

/-- A single PUT and an upload agree on a metadata map, unless it could be
stored and has an empty name. -/
theorem userMetadata_agrees_iff (hput : headers.userMetadata = [])
    (hcaller : request.headers.userMetadata = [])
    (hbase : createHeaders { request with userMetadata := [] } = .ok base)
    (metadata : List (Str × Str)) :
    SameMetadata metadata (insertUserMetadata headers metadata)
        (createHeaders { request with userMetadata := metadata }) ↔
      ¬ (Storable metadata ∧ ∃ entry ∈ metadata, entry.1 = []) := by
  have hupload : base.userMetadata = [] :=
    (createHeaders_userMetadata hbase).trans hcaller
  have hfree : ∀ {m : HeaderMap}, m.userMetadata = [] →
      ((∃ m', insertUserMetadata m metadata = .ok m') ↔ Storable metadata) := by
    intro m hm
    rw [insertUserMetadata_succeeds]
    exact and_iff_left fun entry _ =>
      containsKey_of_userMetadata hm (isMetadataName_key entry)
  have hcreate :
      ∀ {m' : HeaderMap},
        createHeaders { request with userMetadata := metadata } = .ok m' ↔
      (∀ entry ∈ metadata, entry.1 ≠ []) ∧
          insertUserMetadata base metadata = .ok m' := by
    intro m'
    rw [createHeaders_eq, hbase]
    exact insertUploadMetadata_eq_ok
  constructor
  · rintro ⟨haccepted, -⟩ ⟨hstorable, entry, hentry, hempty⟩
    obtain ⟨m', hm'⟩ := haccepted.mp ((hfree hput).mpr hstorable)
    exact (hcreate.mp hm').1 entry hentry hempty
  · intro hno
    constructor
    · rw [hfree hput]
      constructor
      · intro hstorable
        obtain ⟨m', hm'⟩ := (hfree hupload).mpr hstorable
        exact ⟨m',
          hcreate.mpr
            ⟨fun entry hentry hempty => hno ⟨hstorable, entry, hentry, hempty⟩,
              hm'⟩⟩
      · rintro ⟨m', hm'⟩
        exact (hfree hupload).mp ⟨m', (hcreate.mp hm').2⟩
    · intro m m' hm hm'
      have hentries := insertUserMetadata_entries hm
      have hentries' := insertUserMetadata_entries (hcreate.mp hm').2
      rw [hput, List.map_nil, List.nil_append] at hentries
      rw [hupload, List.map_nil, List.nil_append] at hentries'
      exact ⟨List.map_injective_iff.mpr (Option.some_injective _)
        (hentries.trans hentries'.symm), hentries⟩

/-- An upload of an object named `k`. -/
def plainUpload : CreateMultipartUploadRequest :=
  .new ⟨['k'], by decide, by decide⟩

theorem userMetadata_agrees_owner :
    SameMetadata [("Owner".toList, "me".toList)]
      (insertUserMetadata HeaderMap.new [("Owner".toList, "me".toList)])
      (createHeaders
        { plainUpload with userMetadata := [("Owner".toList, "me".toList)] }) :=
  (@userMetadata_agrees_iff HeaderMap.new HeaderMap.new plainUpload rfl rfl rfl
    _).mpr
    fun h => absurd h.2 (by decide)

/-- The single PUT stores an entry without a name, and the upload refuses it. -/
theorem userMetadata_empty_name :
    ¬ ∀ (headers : HeaderMap) (request : CreateMultipartUploadRequest)
      (base : HeaderMap)
      (metadata : List (Str × Str)), headers.userMetadata = [] →
      request.headers.userMetadata = [] →
      createHeaders { request with userMetadata := [] } = .ok base →
      SameMetadata metadata (insertUserMetadata headers metadata)
        (createHeaders { request with userMetadata := metadata }) := by
  intro h
  have hstorable : Storable [([], "value".toList)] := by
    refine ⟨?_, List.nodup_singleton _⟩
    rw [List.forall_mem_singleton]
    decide
  have hput :=
    insertUserMetadata_succeeds.mpr
      ⟨hstorable, fun _ _ => (rfl : HeaderMap.new.containsKey _ = false)⟩
  obtain ⟨m, hm⟩ :=
    (h HeaderMap.new plainUpload HeaderMap.new _ rfl rfl rfl).accepted.mp hput
  cases hm

end Operations

end S3Wire
