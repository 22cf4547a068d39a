/-
# `S3Wire.Protocol.Results` — the documents that answer an operation

The reading half of `src/protocol/delete.rs` and of
`src/protocol/multipart/completion.rs`, with `create.rs`, `copy.rs` and
`common.rs` beside it.  A completion and the two copies may answer a success
status with an `Error` document; the root of the document decides which of two
schemas it is read under, and the schema checks the root once more
(`rootIsError`, `expectRoot`).  The two looks at the root agree, so an accepted
document has the root of what it was accepted as (`parseEmbedded_ok`).
-/
import S3Wire.Client.Request.Diagnostics

namespace S3Wire

/-! ## Documents -/

/-- The `InitiateMultipartUploadResult` document. -/
structure CreateDocument where
  bucket : Option Str
  key : Str
  uploadId : Str
  checksumAlgorithm : Option Str
  checksumType : Option Str

/-- The five checksum elements of the result are one field. -/
structure CompleteResultDocument where
  location : Option Str
  bucket : Option Str
  key : Option Str
  eTag : Option Str
  checksum : Checksum

/-- The `CopyObjectResult` and `CopyPartResult` documents. -/
structure CopyResultDocument where
  eTag : Option Str
  lastModified : Option Str
  checksum : Checksum

/-- A `Deleted` element. -/
structure DeletedDocument where
  key : Str
  versionId : Option Str
  deleteMarker : Bool
  deleteMarkerVersionId : Option Str

/-- An `Error` element of a batch. -/
structure DeleteErrorDocument where
  key : Str
  versionId : Option Str
  code : Option Str
  message : Option Str

/-- The `DeleteResult` document. -/
structure DeleteResultDocument where
  deleted : List DeletedDocument
  errors : List DeleteErrorDocument

/-- The XML library, at the documents of the results too. -/
structure ResultReader extends XmlReader where
  error : Str → Option ErrorDocument
  create : Str → Option CreateDocument
  complete : Str → Option CompleteResultDocument
  copyResult : Str → Option CopyResultDocument
  deleteResult : Str → Option DeleteResultDocument

/-! ## Reading them -/

section Reading

variable (xml : ResultReader)

/-- The scanner that only chooses the schema: declarations are left to the
parser. -/
def rootIsError (body : Bytes) (maximum : Nat) : Except ProtocolError Bool :=
  if maximum < body.length then .error (.oversized body.length maximum)
  else
    match Lib.utf8Decode body with
    | none => .error (.invalidXml .library)
    | some text =>
        match xml.rootName text with
        | .error fault => .error (.invalidXml fault)
        | .ok name => .ok (name = "Error".toList)

/-- `parse_create_multipart_upload`. -/
def parseCreateMultipartUpload (body : Bytes) (maximum : Nat) :
    Except ProtocolError CreateMultipartUploadOutput := do
  let () ← expectRoot xml.toXmlReader body maximum
    "InitiateMultipartUploadResult"
  let document ← parseBounded xml.create body maximum
  let uploadId ← parseUploadId "UploadId" document.uploadId
  let key ← parseKey "Key" document.key
  return {
    bucket := document.bucket
    key := key
    uploadId := uploadId
    checksumAlgorithm := document.checksumAlgorithm
    checksumType := document.checksumType.map ChecksumType.parse
    requestIds := ⟨none, none⟩ }

/-- `parse_delete_objects`. -/
def parseDeleteObjects (body : Bytes) (maximum : Nat) :
    Except ProtocolError DeleteObjectsOutput := do
  let () ← expectRoot xml.toXmlReader body maximum "DeleteResult"
  let document ← parseBounded xml.deleteResult body maximum
  let deleted ← document.deleted.mapM fun item => do
    let key ← parseKey "Deleted.Key" item.key
    return DeletedObject.mk key item.versionId item.deleteMarker
      item.deleteMarkerVersionId
  return {
    deleted := deleted
    errors := document.errors.map fun item =>
      ⟨item.key, item.versionId, item.code, item.message⟩
    requestIds := ⟨none, none⟩ }

/-- What a success status may come with. -/
inductive EmbeddedResponse (α : Type) where
  | complete (output : α)
  | embeddedError (error : ParsedS3Error)

abbrev CompleteMultipartResponse :=
  EmbeddedResponse CompleteMultipartUploadOutput
abbrev CopyObjectResponse := EmbeddedResponse CopyObjectOutput

/-- What the document of a copied part comes to. -/
structure CopyPartResult where
  eTag : Str
  lastModified : Option Int
  checksum : Checksum

abbrev UploadPartCopyResponse := EmbeddedResponse CopyPartResult

/-- An `Error` document, or else the document of the result. -/
def parseEmbedded {α : Type} (parse : Bytes → Nat → Except ProtocolError α)
    (body : Bytes) (maximum : Nat) :
    Except ProtocolError (EmbeddedResponse α) := do
  if ← rootIsError xml body maximum then
    let error ← parseS3Error xml.toXmlReader xml.error body maximum
    return .embeddedError error
  else
    let output ← parse body maximum
    return .complete output

/-- The second half of `parse_complete_multipart_upload`. -/
def completeResult (body : Bytes) (maximum : Nat) :
    Except ProtocolError CompleteMultipartUploadOutput := do
  let () ← expectRoot xml.toXmlReader body maximum
    "CompleteMultipartUploadResult"
  let document ← parseBounded xml.complete body maximum
  let key ← document.key.mapM (parseKey "Key")
  return {
    location := document.location
    bucket := document.bucket
    key := key
    eTag := document.eTag
    versionId := none
    checksum := document.checksum
    requestIds := ⟨none, none⟩ }

def parseCompleteMultipartUpload : Bytes → Nat →
    Except ProtocolError CompleteMultipartResponse :=
  parseEmbedded xml (completeResult xml)

/-- The second half of `parse_copy_object`. -/
def copyObjectResult (body : Bytes) (maximum : Nat) :
    Except ProtocolError CopyObjectOutput := do
  let () ← expectRoot xml.toXmlReader body maximum "CopyObjectResult"
  let document ← parseBounded xml.copyResult body maximum
  let lastModified ← document.lastModified.mapM
    (parseTime xml.toXmlReader "LastModified")
  return {
    eTag := document.eTag
    lastModified := lastModified
    versionId := none
    checksum := document.checksum
    requestIds := ⟨none, none⟩ }

def parseCopyObject : Bytes → Nat → Except ProtocolError CopyObjectResponse :=
  parseEmbedded xml (copyObjectResult xml)

/-- The ETag of a copied part, which must say something. -/
def usableETag (eTag : Option Str) : Except ProtocolError Str :=
  match eTag.filter fun value => !value.isBlank with
  | some eTag => .ok eTag
  | none => .error (.invalidField "ETag" "copied part has no usable ETag")

/-- The second half of `parse_upload_part_copy`. -/
def copyPartResult (body : Bytes) (maximum : Nat) :
    Except ProtocolError CopyPartResult := do
  let () ← expectRoot xml.toXmlReader body maximum "CopyPartResult"
  let document ← parseBounded xml.copyResult body maximum
  let eTag ← usableETag document.eTag
  let lastModified ← document.lastModified.mapM
    (parseTime xml.toXmlReader "LastModified")
  return ⟨eTag, lastModified, document.checksum⟩

def parseUploadPartCopy : Bytes → Nat →
    Except ProtocolError UploadPartCopyResponse :=
  parseEmbedded xml (copyPartResult xml)

end Reading

/-! ## What was accepted -/

section Accepted

variable {xml : ResultReader} {body : Bytes} {maximum : Nat} {root : Str}

/-- A document within the bound, without declarations, of this root. -/
def HasRoot (xml : ResultReader) (root : Str) (body : Bytes) (maximum : Nat) :
    Prop :=
  ∃ text, boundedText body maximum = .ok text ∧ xml.rootName text = .ok root

theorem boundedText_ok {text : Str} (h : boundedText body maximum = .ok text) :
    body.length ≤ maximum ∧
    asciiContainsIgnoreCase body (Lib.utf8 "<!DOCTYPE".toList) = false ∧
      asciiContainsIgnoreCase body (Lib.utf8 "<!ENTITY".toList) = false ∧
      Lib.utf8Decode body = some text := by
  rw [boundedText] at h
  split at h
  · cases h
  next hfits =>
  split at h
  · cases h
  next hplain =>
  rw [Bool.or_eq_true, not_or, Bool.not_eq_true, Bool.not_eq_true] at hplain
  split at h
  · cases h
  · next text' htext =>
      cases h
      exact ⟨Nat.not_lt.mp hfits, hplain.1, hplain.2, htext⟩

theorem HasRoot.unique {root' : Str} (h : HasRoot xml root body maximum)
    (h' : HasRoot xml root' body maximum) :
    root = root' := by
  obtain ⟨text, htext, hroot⟩ := h
  obtain ⟨text', htext', hroot'⟩ := h'
  obtain rfl := Except.ok.inj (htext.symm.trans htext')
  exact Except.ok.inj (hroot.symm.trans hroot')

theorem expectRoot_ok
    (h : expectRoot xml.toXmlReader body maximum root = .ok ()) :
    HasRoot xml root body maximum := by
  rw [expectRoot] at h
  split at h
  · cases h
  next text htext =>
  split at h
  · cases h
  next name hname =>
  split at h
  · next heq =>
      rw [heq] at hname
      exact ⟨text, htext, hname⟩
  · cases h

/-- A document of this root is looked at twice, and is an error both times or
neither. -/
theorem rootIsError_of_hasRoot (h : HasRoot xml root body maximum) :
    rootIsError xml body maximum = .ok (root = "Error".toList) := by
  obtain ⟨text, htext, hroot⟩ := h
  obtain ⟨hfits, -, -, htext⟩ := boundedText_ok htext
  rw [rootIsError, if_neg (Nat.not_lt.mpr hfits), htext]
  dsimp only
  rw [hroot]

theorem parseCreateMultipartUpload_ok {output : CreateMultipartUploadOutput}
    (h : parseCreateMultipartUpload xml body maximum = .ok output) :
    HasRoot xml "InitiateMultipartUploadResult" body maximum := by
  obtain ⟨_, hroot, -⟩ := Lib.bind_ok h
  exact expectRoot_ok hroot

theorem parseDeleteObjects_ok {output : DeleteObjectsOutput}
    (h : parseDeleteObjects xml body maximum = .ok output) :
    HasRoot xml "DeleteResult" body maximum := by
  obtain ⟨_, hroot, -⟩ := Lib.bind_ok h
  exact expectRoot_ok hroot

theorem completeResult_ok {output : CompleteMultipartUploadOutput}
    (h : completeResult xml body maximum = .ok output) :
    HasRoot xml "CompleteMultipartUploadResult" body maximum := by
  obtain ⟨_, hroot, -⟩ := Lib.bind_ok h
  exact expectRoot_ok hroot

theorem copyObjectResult_ok {output : CopyObjectOutput}
    (h : copyObjectResult xml body maximum = .ok output) :
    HasRoot xml "CopyObjectResult" body maximum := by
  obtain ⟨_, hroot, -⟩ := Lib.bind_ok h
  exact expectRoot_ok hroot

/-- A copied part has the root of one, and an ETag that a completion takes. -/
theorem copyPartResult_ok {result : CopyPartResult}
    (h : copyPartResult xml body maximum = .ok result) :
    HasRoot xml "CopyPartResult" body maximum ∧
    result.eTag.isBlank = false := by
  obtain ⟨_, hroot, h⟩ := Lib.bind_ok h
  obtain ⟨document, -, h⟩ := Lib.bind_ok h
  obtain ⟨eTag, htag, h⟩ := Lib.bind_ok h
  obtain ⟨lastModified, -, h⟩ := Lib.bind_ok h
  cases h
  refine ⟨expectRoot_ok hroot, ?_⟩
  rw [usableETag.eq_def] at htag
  split at htag
  · next usable husable =>
      cases htag
      simpa using (Option.filter_eq_some_iff.mp husable).2
  · cases htag

theorem parseListObjectsV2_root {page : ListObjectsV2Output}
    (h : parseListObjectsV2 xml.toXmlReader body maximum = .ok page) :
    HasRoot xml "ListBucketResult" body maximum := by
  obtain ⟨_, hroot, -⟩ := Lib.bind_ok h
  exact expectRoot_ok hroot

theorem parseListMultipartUploads_root {page : ListMultipartUploadsOutput}
    (h : parseListMultipartUploads xml.toXmlReader body maximum = .ok page) :
    HasRoot xml "ListMultipartUploadsResult" body maximum := by
  obtain ⟨_, hroot, -⟩ := Lib.bind_ok h
  exact expectRoot_ok hroot

theorem parseListParts_root {page : ListPartsOutput}
    (h : parseListParts xml.toXmlReader body maximum = .ok page) :
    HasRoot xml "ListPartsResult" body maximum := by
  obtain ⟨_, hroot, -⟩ := Lib.bind_ok h
  exact expectRoot_ok hroot

/-- What is read under a schema is no error, and an error is read as one. -/
theorem parseEmbedded_ok {α : Type}
    {parse : Bytes → Nat → Except ProtocolError α}
    {response : EmbeddedResponse α}
    (h : parseEmbedded xml parse body maximum = .ok response) :
    match response with
    | .complete output =>
      parse body maximum = .ok output ∧ ¬ HasRoot xml "Error" body maximum
    | .embeddedError error =>
        parseS3Error xml.toXmlReader xml.error body maximum = .ok error := by
  obtain ⟨isError, hroot, h⟩ := Lib.bind_ok h
  cases isError with
  | true =>
      obtain ⟨error, herror, h⟩ := Lib.bind_ok h
      cases h
      exact herror
  | false =>
      obtain ⟨output, houtput, h⟩ := Lib.bind_ok h
      cases h
      refine ⟨houtput, ?_⟩
      intro herror
      cases hroot.symm.trans (rootIsError_of_hasRoot herror)

end Accepted

end S3Wire
