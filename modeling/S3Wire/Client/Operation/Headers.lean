/-
# `S3Wire.Client.Operation.Headers` — the headers that an operation generates

`src/client/object/headers/request.rs` and the request half of
`src/client/multipart/headers.rs`.  Every helper goes through the checked
insertion, so what it does to a map is a chain of insertions under names that
were free and are not the client's (`Extends`).  Beside each helper stands the
list of what it inserts, in the texts of the typed fields; a chain is a disjoint
union of the map it started from and that list (`Extends.disjointUnion`).
-/
import S3Wire.Client.Signing
import S3Wire.Lib.Fallible
import S3Wire.Operation.Object

namespace S3Wire

/-! ## Chains of insertions -/

/-- Header names are compared in lower case. -/
def Header.key (header : Header) : Str := header.name.map Char.toLower

/-- The headers of a caller, inserted one by one where none of that name was: a
header of the client is never replaced. -/
inductive Extends : HeaderMap → List Header → HeaderMap → Prop
  | refl (headers : HeaderMap) : Extends headers [] headers
  | insert {headers headers' : HeaderMap} {header : Header} {rest : List Header}
      {name : HeaderName}
      {value : HeaderValue} (hname : name.text = header.key)
      (hvalue : HeaderValue.fromStr header.value = some value)
      (hfree : headers.containsKey header.key = false)
      (hunreserved : header.key ∉ protectedHeaders)
      (hrest : Extends (headers.insert name value) rest headers') :
        Extends headers (header :: rest) headers'

/-- The headers of the caller and the generated ones, side by side. -/
structure DisjointUnion (caller : HeaderMap) (generated : List Header)
    (headers : HeaderMap) : Prop where
  /-- A header of the caller keeps its values in their order. -/
  kept : ∀ name, caller.containsKey name = true →
    headers.getAll name = caller.getAll name
  /-- A generated header has its one value, under a name that the caller did not
  use. -/
  inserted : ∀ header ∈ generated, caller.containsKey header.key = false ∧
    ∃ value, HeaderValue.fromStr header.value = some value ∧
      headers.getAll header.key = [value]
  /-- No two generated headers share a name. -/
  distinct : (generated.map Header.key).Nodup
  unreserved : ∀ header ∈ generated, header.key ∉ protectedHeaders
  /-- Nothing else is there. -/
  only : ∀ name, headers.containsKey name = true →
    caller.containsKey name = true ∨ name ∈ generated.map Header.key

namespace Extends

variable {headers headers' headers'' : HeaderMap}
  {generated generated' : List Header}

theorem trans (h : Extends headers generated headers')
    (h' : Extends headers' generated' headers'') :
    Extends headers (generated ++ generated') headers'' := by
  induction h with
  | refl headers => exact h'
  | insert hname hvalue hfree hunreserved _ ih =>
      exact .insert hname hvalue hfree hunreserved (ih h')

theorem disjointUnion (h : Extends headers generated headers') :
    DisjointUnion headers generated headers' := by
  induction h with
  | refl headers =>
      exact ⟨fun _ _ => rfl, nofun, List.nodup_nil, nofun,
        fun name hname => Or.inl hname⟩
  | @insert headers headers' header rest name value hname hvalue hfree
      hunreserved _ ih =>
      have hgrown : ∀ k, (headers.insert name value).containsKey k =
          (k == header.key || headers.containsKey k) := by
        intro k
        rw [HeaderMap.containsKey_insert, hname]
      have hown : (headers.insert name value).containsKey header.key =
          true := by
        rw [hgrown, beq_self_eq_true, Bool.true_or]
      refine ⟨?_, ?_, ?_, ?_, ?_⟩
      · intro k hk
        have hne : k ≠ header.key := by
          rintro rfl
          rw [hfree] at hk
          cases hk
        have hk' : (headers.insert name value).containsKey k = true := by
          rw [hgrown, hk, Bool.or_true]
        rw [ih.kept k hk', HeaderMap.getAll_insert, hname, if_neg hne]
      · intro other hother
        rcases List.mem_cons.mp hother with rfl | hother
        · refine ⟨hfree, value, hvalue, ?_⟩
          rw [ih.kept _ hown, HeaderMap.getAll_insert, hname, if_pos rfl]
        · obtain ⟨hnew, hvalue'⟩ := ih.inserted other hother
          rw [hgrown, Bool.or_eq_false_iff] at hnew
          exact ⟨hnew.2, hvalue'⟩
      · refine List.nodup_cons.mpr ⟨?_, ih.distinct⟩
        intro hmem
        obtain ⟨other, hother, hkey⟩ := List.mem_map.mp hmem
        have hnew := (ih.inserted other hother).1
        rw [hkey, hown] at hnew
        cases hnew
      · intro other hother
        rcases List.mem_cons.mp hother with rfl | hother
        · exact hunreserved
        · exact ih.unreserved other hother
      · intro k hk
        rcases ih.only k hk with hk | hk
        · rw [hgrown, Bool.or_eq_true] at hk
          rcases hk with hk | hk
          · exact Or.inr (List.mem_cons.mpr (Or.inl (eq_of_beq hk)))
          · exact Or.inl hk
        · exact Or.inr (List.mem_cons_of_mem _ hk)

end Extends

/-! ## One header -/

section Insert

variable {headers headers' : HeaderMap} {name : HeaderName} {text : Str}

/-- A header that may be missing. -/
def optionalEntry (name : Str) (value : Option Str) : List Header :=
  value.toList.map (⟨name, ·⟩)

/-- The name of a generated header, for the text that the list gives. -/
structure NameOf (name : HeaderName) (text : Str) : Prop where
  folded : name.text = text.map Char.toLower
  unreserved : text.map Char.toLower ∉ protectedHeaders

theorem toLower_of_isHeaderNameChar {c : Char} (h : isHeaderNameChar c = true) :
    c.toLower = c := by
  have hascii : c.toNat ≤ 127 := by
    by_contra hlarge
    rw [isHeaderNameChar, Bool.or_eq_true, Bool.or_eq_true, decide_eq_true_eq]
      at h
    rcases h with (h | h) | h
    · exact hlarge
        (ascii_of_isAlphanum (by simp [Char.isAlphanum, Char.isAlpha, h]))
    · exact hlarge (ascii_of_isAlphanum (by simp [Char.isAlphanum, h]))
    · have hsymbols : ("!#$%&'*+-.^_`|~".toList.all fun c => c.toNat ≤ 127) =
        true := by decide
      exact hlarge (of_decide_eq_true (List.all_eq_true.mp hsymbols c h))
  exact Lib.forall_ascii (P := fun c => isHeaderNameChar c = true →
    c.toLower = c) (by decide +kernel) hascii h

theorem NameOf.fromStatic (h : text ≠ [] ∧ text.all isHeaderNameChar = true)
    (hunreserved : text ∉ protectedHeaders) :
    NameOf (.fromStatic text h) text := by
  have hfolded : text.map Char.toLower = text := by
    conv_rhs => rw [← List.map_id text]
    exact List.map_congr_left fun c hc =>
      toLower_of_isHeaderNameChar (List.all_eq_true.mp h.2 c hc)
  refine ⟨hfolded.symm, ?_⟩
  rw [hfolded]
  exact hunreserved

theorem insertHeader_extends {value : Str} (hname : NameOf name text)
    (h : insertHeader headers name value = .ok headers') :
    Extends headers [⟨text, value⟩] headers' := by
  obtain ⟨hfree, v, hv, rfl⟩ := insertHeader_ok h
  rw [hname.folded] at hfree
  exact .insert hname.folded hv hfree hname.unreserved (.refl _)

theorem insertOptionalHeader_extends {value : Option Str}
    (hname : NameOf name text)
    (h : insertOptionalHeader headers name value = .ok headers') :
    Extends headers (optionalEntry text value) headers' := by
  cases value with
  | none =>
      cases h
      exact .refl headers
  | some value => exact insertHeader_extends hname h

theorem HeaderName.fromStr_text (h : HeaderName.fromStr text = some name) :
    name.text = text.map Char.toLower := by
  rw [HeaderName.fromStr] at h
  split at h
  · split at h
    · cases h
      rfl
    · cases h
  · cases h

theorem insertNamedHeader_extends {value : Str}
    (hunreserved : text.map Char.toLower ∉ protectedHeaders)
    (h : insertNamedHeader headers text value = .ok headers') :
    Extends headers [⟨text, value⟩] headers' := by
  rw [insertNamedHeader] at h
  split at h
  · cases h
  · next name hname =>
      exact insertHeader_extends ⟨HeaderName.fromStr_text hname, hunreserved⟩ h

theorem insertOptionalNamedHeader_extends {value : Option Str}
    (hunreserved : text.map Char.toLower ∉ protectedHeaders)
    (h : insertOptionalNamedHeader headers text value = .ok headers') :
    Extends headers (optionalEntry text value) headers' := by
  cases value with
  | none =>
      cases h
      exact .refl headers
  | some value => exact insertNamedHeader_extends hunreserved h

theorem insertChecksum_extends {value : Option Str} {digestLength : Nat}
    (hname : NameOf name text)
    (h : insertChecksum headers name value digestLength = .ok headers') :
    Extends headers (optionalEntry text value) headers' := by
  cases value with
  | none =>
      cases h
      exact .refl headers
  | some value =>
      rw [insertChecksum] at h
      split at h
      · cases h
      · exact insertHeader_extends hname h

end Insert

/-! ## The helpers of the object operations -/

section Object

variable {headers headers' : HeaderMap}

/-- `insert_upload_checksum`. -/
def insertUploadChecksum (headers : HeaderMap)
    (algorithm : Option ChecksumAlgorithm) (body : PreparedBody) :
    Except S3Error HeaderMap :=
  match algorithm with
  | none => .ok headers
  | some .sha256 => do
      let headers ← insertHeader headers
        (.fromStatic "x-amz-sdk-checksum-algorithm" (by decide)) "SHA256"
      insertHeader headers
        (.fromStatic "x-amz-checksum-sha256" (by decide)) body.sha256Base64
  | some _ =>
      .error (S3Error.unsupported
        "the selected upload checksum algorithm is not implemented")

/-- The header of the algorithm that was asked for. -/
def uploadChecksumEntries (algorithm : Option ChecksumAlgorithm)
    (body : PreparedBody) : List Header :=
  match algorithm with
  | none => []
  | some _ =>
      [⟨"x-amz-sdk-checksum-algorithm", "SHA256"⟩,
        ⟨"x-amz-checksum-sha256", body.sha256Base64⟩]

theorem insertUploadChecksum_extends {algorithm : Option ChecksumAlgorithm}
    {body : PreparedBody}
    (h : insertUploadChecksum headers algorithm body = .ok headers') :
    Extends headers (uploadChecksumEntries algorithm body) headers' := by
  rw [insertUploadChecksum.eq_def] at h
  split at h
  · cases h
    exact .refl headers
  · obtain ⟨headers₁, h₁, h₂⟩ := Lib.bind_ok h
    exact (insertHeader_extends (.fromStatic _ (by decide)) h₁).trans
      (insertHeader_extends (.fromStatic _ (by decide)) h₂)
  · cases h

/-- `insert_conditions`; `formatHttpDate` is a table of another library. -/
def insertConditions (formatHttpDate : Int → Str) (headers : HeaderMap)
    (conditions : Conditions) (namePrefix : Str) : Except S3Error HeaderMap :=
  do
  let headers ← insertOptionalNamedHeader headers
    (namePrefix ++ "if-match".toList) conditions.ifMatch
  let headers ← insertOptionalNamedHeader headers
    (namePrefix ++ "if-none-match".toList) conditions.ifNoneMatch
  let headers ← insertOptionalNamedHeader headers
    (namePrefix ++ "if-modified-since".toList)
    (conditions.ifModifiedSince.map formatHttpDate)
  insertOptionalNamedHeader headers (namePrefix ++ "if-unmodified-since".toList)
    (conditions.ifUnmodifiedSince.map formatHttpDate)

/-- The conditional headers that are there. -/
def Conditions.entries (formatHttpDate : Int → Str) (conditions : Conditions)
    (namePrefix : Str) : List Header :=
  optionalEntry (namePrefix ++ "if-match".toList) conditions.ifMatch ++
    (optionalEntry
      (namePrefix ++ "if-none-match".toList) conditions.ifNoneMatch ++
      (optionalEntry (namePrefix ++ "if-modified-since".toList)
        (conditions.ifModifiedSince.map formatHttpDate) ++
        optionalEntry (namePrefix ++ "if-unmodified-since".toList)
          (conditions.ifUnmodifiedSince.map formatHttpDate)))

theorem insertConditions_extends {formatHttpDate : Int → Str}
    {conditions : Conditions} {namePrefix : Str}
    (hleading : namePrefix = [] ∨ namePrefix = "x-amz-copy-source-".toList)
    (h : insertConditions formatHttpDate headers conditions namePrefix =
      .ok headers') :
    Extends headers
      (conditions.entries formatHttpDate namePrefix) headers' := by
  obtain ⟨headers₁, h₁, h⟩ := Lib.bind_ok h
  obtain ⟨headers₂, h₂, h⟩ := Lib.bind_ok h
  obtain ⟨headers₃, h₃, h₄⟩ := Lib.bind_ok h
  have hunreserved :
      ∀ name ∈ ["if-match".toList, "if-none-match".toList, "if-modified-since".toList,
      "if-unmodified-since".toList],
          (namePrefix ++ name).map Char.toLower ∉ protectedHeaders := by
    rcases hleading with rfl | rfl
    · decide
    · decide
  exact (insertOptionalNamedHeader_extends (hunreserved _ (by simp)) h₁).trans
    ((insertOptionalNamedHeader_extends (hunreserved _ (by simp)) h₂).trans
      ((insertOptionalNamedHeader_extends (hunreserved _ (by simp)) h₃).trans
        (insertOptionalNamedHeader_extends (hunreserved _ (by simp)) h₄)))

/-- The header that a name of user metadata travels in. -/
def metadataName (name : Str) : Str := "x-amz-meta-".toList ++ name

/-- `insert_user_metadata`. -/
def insertUserMetadata (headers : HeaderMap) : List (Str × Str) →
    Except S3Error HeaderMap
  | [] => .ok headers
  | (name, value) :: rest => do
      let headers ← insertNamedHeader headers (metadataName name) value
      insertUserMetadata headers rest

/-- The headers of the user metadata. -/
def metadataEntries (metadata : List (Str × Str)) : List Header :=
  metadata.map fun entry => ⟨metadataName entry.1, entry.2⟩

theorem metadataName_unreserved (name : Str) :
    (metadataName name).map Char.toLower ∉ protectedHeaders := by
  have hfolded :
    "x-amz-meta-".toList.map Char.toLower = "x-amz-meta-".toList := by decide
  have hstart :
    (protectedHeaders.all fun p => !"x-amz-meta-".toList.isPrefixOf p) =
      true := by decide
  show ("x-amz-meta-".toList ++ name).map Char.toLower ∉ protectedHeaders
  rw [List.map_append, hfolded]
  intro hmem
  have hnot := List.all_eq_true.mp hstart _ hmem
  rw [Bool.not_eq_true', Bool.eq_false_iff] at hnot
  exact hnot (List.isPrefixOf_iff_prefix.mpr (List.prefix_append _ _))

theorem insertUserMetadata_extends :
    ∀ {metadata : List (Str × Str)} {headers : HeaderMap},
    insertUserMetadata headers metadata = .ok headers' →
    Extends headers (metadataEntries metadata) headers'
  | [], _, h => by
      cases h
      exact .refl _
  | (name, value) :: rest, headers, h => by
      obtain ⟨headers₁, h₁, h⟩ := Lib.bind_ok h
      exact (insertNamedHeader_extends (metadataName_unreserved name) h₁).trans
        (insertUserMetadata_extends h)

/-- `copy_source_header`, with its own encoder. -/
def copySourceHeader (source : CopySource) : Str :=
  '/' :: (encode false source.bucket ++ '/' :: (encode true source.key.text ++
    match source.versionId with
    | some versionId => "?versionId=".toList ++ encode false versionId
    | none => []))
where
  /-- `percent_encode`. -/
  encode (preserveSlash : Bool) (text : Str) : Str :=
    Lib.percentEncode
      (if preserveSlash then isUnreservedOrSlash else isUnreserved)
        (Lib.utf8 text)

end Object

/-! ## The helpers of the multipart operations -/

section Multipart

variable {headers headers' : HeaderMap}

/-- What the service calls an algorithm. -/
def ChecksumAlgorithm.headerName : ChecksumAlgorithm → Str
  | .crc32 => "CRC32"
  | .crc32c => "CRC32C"
  | .crc64Nvme => "CRC64NVME"
  | .sha1 => "SHA1"
  | .sha256 => "SHA256"

/-- `ChecksumType::as_str`. -/
def ChecksumType.asStr : ChecksumType → Str
  | .composite => "COMPOSITE"
  | .fullObject => "FULL_OBJECT"
  | .unknown value => value

/-- The loop at the end of `create_headers`, with its own messages. -/
def insertUploadMetadata (headers : HeaderMap) : List (Str × Str) →
    Except S3Error HeaderMap
  | [] => .ok headers
  | (name, value) :: rest =>
      if name.isEmpty then
        .error (S3Error.configuration "user metadata names cannot be empty")
      else
        match HeaderName.fromStr (metadataName name) with
        | none =>
            .error (S3Error.configuration
              "user metadata name is not a valid HTTP header")
        | some name => do
            let headers ← insertHeader headers name value
            insertUploadMetadata headers rest

theorem insertUploadMetadata_extends :
    ∀ {metadata : List (Str × Str)} {headers : HeaderMap},
    insertUploadMetadata headers metadata = .ok headers' →
    Extends headers (metadataEntries metadata) headers'
  | [], _, h => by
      cases h
      exact .refl _
  | (name, value) :: rest, headers, h => by
      rw [insertUploadMetadata] at h
      split at h
      · cases h
      split at h
      · cases h
      · next headerName hname =>
          obtain ⟨headers₁, h₁, h⟩ := Lib.bind_ok h
          exact (insertHeader_extends
            ⟨HeaderName.fromStr_text hname, metadataName_unreserved name⟩
              h₁).trans
            (insertUploadMetadata_extends h)

def HeaderName.contentType : HeaderName := fromStatic "content-type" (by decide)

/-- The headers of a `CreateMultipartUpload`. -/
def createHeaders (request : CreateMultipartUploadRequest) :
    Except S3Error HeaderMap := do
  let headers ← requestHeaders request.headers
  let headers ← insertOptionalHeader headers .contentType request.contentType
  let headers ← insertOptionalHeader headers
    (.fromStatic "x-amz-checksum-algorithm" (by decide))
    (request.checksumAlgorithm.map ChecksumAlgorithm.headerName)
  let headers ← insertOptionalHeader headers
    (.fromStatic "x-amz-checksum-type" (by decide))
    (request.checksumType.map ChecksumType.asStr)
  insertUploadMetadata headers request.userMetadata

/-- The same as a list, for the lemmas. -/
def CreateMultipartUploadRequest.entries
    (request : CreateMultipartUploadRequest) : List Header :=
  optionalEntry "content-type" request.contentType ++
    (optionalEntry "x-amz-checksum-algorithm"
      (request.checksumAlgorithm.map ChecksumAlgorithm.headerName) ++
      (optionalEntry "x-amz-checksum-type"
        (request.checksumType.map ChecksumType.asStr) ++
        metadataEntries request.userMetadata))

theorem createHeaders_extends {request : CreateMultipartUploadRequest}
    (h : createHeaders request = .ok headers') :
    requestHeaders request.headers = .ok request.headers ∧
    Extends request.headers request.entries headers' := by
  rw [createHeaders] at h
  obtain ⟨headers₀, hcaller, h⟩ := Lib.bind_ok h
  obtain ⟨rfl, -⟩ := requestHeaders_ok hcaller
  obtain ⟨headers₁, h₁, h⟩ := Lib.bind_ok h
  obtain ⟨headers₂, h₂, h⟩ := Lib.bind_ok h
  obtain ⟨headers₃, h₃, h₄⟩ := Lib.bind_ok h
  exact ⟨hcaller,
    (insertOptionalHeader_extends (.fromStatic _ (by decide)) h₁).trans
    ((insertOptionalHeader_extends (.fromStatic _ (by decide)) h₂).trans
      ((insertOptionalHeader_extends (.fromStatic _ (by decide)) h₃).trans
        (insertUploadMetadata_extends h₄)))⟩

/-- The headers of the checksums that are there. -/
def checksumHeaders (checksum : Checksum) (headers : HeaderMap) :
    Except S3Error HeaderMap := do
  let headers ← requestHeaders headers
  let headers ← insertChecksum headers
    (.fromStatic "x-amz-checksum-crc32" (by decide)) checksum.crc32 4
  let headers ← insertChecksum headers
    (.fromStatic "x-amz-checksum-crc32c" (by decide)) checksum.crc32c 4
  let headers ← insertChecksum headers
    (.fromStatic "x-amz-checksum-crc64nvme" (by decide)) checksum.crc64Nvme 8
  let headers ← insertChecksum headers
    (.fromStatic "x-amz-checksum-sha1" (by decide)) checksum.sha1 20
  insertChecksum headers
    (.fromStatic "x-amz-checksum-sha256" (by decide)) checksum.sha256 32

/-- The same as a list, for the lemmas. -/
def Checksum.entries (checksum : Checksum) : List Header :=
  optionalEntry "x-amz-checksum-crc32" checksum.crc32 ++
    (optionalEntry "x-amz-checksum-crc32c" checksum.crc32c ++
      (optionalEntry "x-amz-checksum-crc64nvme" checksum.crc64Nvme ++
        (optionalEntry "x-amz-checksum-sha1" checksum.sha1 ++
          optionalEntry "x-amz-checksum-sha256" checksum.sha256)))

theorem checksumHeaders_extends {checksum : Checksum}
    (h : checksumHeaders checksum headers = .ok headers') :
    requestHeaders headers = .ok headers ∧
    Extends headers checksum.entries headers' := by
  obtain ⟨headers₀, hcaller, h⟩ := Lib.bind_ok h
  obtain ⟨heq, -⟩ := requestHeaders_ok hcaller
  rw [heq] at hcaller h
  obtain ⟨headers₁, h₁, h⟩ := Lib.bind_ok h
  obtain ⟨headers₂, h₂, h⟩ := Lib.bind_ok h
  obtain ⟨headers₃, h₃, h⟩ := Lib.bind_ok h
  obtain ⟨headers₄, h₄, h₅⟩ := Lib.bind_ok h
  exact ⟨hcaller, (insertChecksum_extends (.fromStatic _ (by decide)) h₁).trans
    ((insertChecksum_extends (.fromStatic _ (by decide)) h₂).trans
      ((insertChecksum_extends (.fromStatic _ (by decide)) h₃).trans
        ((insertChecksum_extends (.fromStatic _ (by decide)) h₄).trans
          (insertChecksum_extends (.fromStatic _ (by decide)) h₅))))⟩

end Multipart

end S3Wire
