/-
# `S3Wire.Protocol.Listing` — the pages of listings, from their documents

`src/protocol/listing.rs`, `src/protocol/multipart/listing.rs` and
`src/protocol/multipart/parts.rs`, with the bounded parser of
`src/protocol/xml.rs`.  The XML library takes a text to a document
(`XmlReader`); what is checked of the document is here.  A page of parts is in
ascending order and every part of it has an ETag (`parseListParts_ok`).
-/
import S3Wire.Lib.Fallible
import S3Wire.Lib.Percent
import S3Wire.Operation.MultipartRequest
import S3Wire.Protocol.Completion

namespace S3Wire

/-! ## Documents -/

/-- A `Contents` element of a listing. -/
structure ObjectDocument where
  key : Str
  lastModified : Option Str
  eTag : Option Str
  size : UInt64
  storageClass : Option Str
  owner : Option ObjectOwner
  checksumAlgorithms : List Str
  checksumType : Option Str

/-- The `ListBucketResult` document. -/
structure ListBucketDocument where
  encodingType : Option Str
  contents : List ObjectDocument
  commonPrefixes : List Str
  isTruncated : Bool
  nextContinuationToken : Option Str
  keyCount : Option UInt32

/-- An `Upload` element of a listing. -/
structure UploadDocument where
  key : Str
  uploadId : Str
  initiated : Option Str
  storageClass : Option Str

/-- The `ListMultipartUploadsResult` document. -/
structure ListUploadsDocument where
  uploads : List UploadDocument
  commonPrefixes : List Str
  isTruncated : Bool
  nextKeyMarker : Option Str
  nextUploadIdMarker : Option Str

/-- A `Part` element of a listing. -/
structure PartDocument where
  partNumber : UInt16
  eTag : Str
  lastModified : Option Str
  size : UInt64
  checksum : Checksum

/-- The `ListPartsResult` document. -/
structure ListPartsDocument where
  parts : List PartDocument
  isTruncated : Bool
  nextPartNumberMarker : Option UInt16
  checksumAlgorithm : Option Str
  checksumType : Option Str

/-- The XML library, and the texts and dates of others. -/
structure XmlReader where
  /-- The local name of the first element, or why there is none. -/
  rootName : Str → Except XmlFault Str
  listBucket : Str → Option ListBucketDocument
  listUploads : Str → Option ListUploadsDocument
  listParts : Str → Option ListPartsDocument
  /-- The time of an RFC 3339 date, or the text of the error. -/
  parseRfc3339 : Str → Except Str Int
  /-- Why these octets are no UTF-8. -/
  utf8Error : Bytes → Str

/-! ## Bounded parsing -/

section Bounded

def toAsciiLower (b : UInt8) : UInt8 := if 65 ≤ b ∧ b ≤ 90 then b + 32 else b

/-- The needle is somewhere in the haystack, in any case. -/
def asciiContainsIgnoreCase (haystack needle : Bytes) : Bool :=
  haystack.tails.any fun window =>
    (needle.map toAsciiLower).isPrefixOf (window.map toAsciiLower)

/-- What every document goes through first. -/
def boundedText (body : Bytes) (maximum : Nat) : Except ProtocolError Str :=
  if maximum < body.length then .error (.oversized body.length maximum)
  else if asciiContainsIgnoreCase body (Lib.utf8 "<!DOCTYPE".toList) ||
      asciiContainsIgnoreCase body (Lib.utf8 "<!ENTITY".toList) then
    .error (.invalidXml (.text "DTD and entity declarations are not accepted"))
  else
    match Lib.utf8Decode body with
    | none => .error (.invalidXml .library)
    | some text => .ok text

/-- A body within the limit that is UTF-8, declares nothing and deserializes. -/
def parseBounded {α : Type} (deserialize : Str → Option α) (body : Bytes)
    (maximum : Nat) :
    Except ProtocolError α :=
  match boundedText body maximum with
  | .error e => .error e
  | .ok text =>
      match deserialize text with
      | none => .error (.invalidXml .library)
      | some document => .ok document

/-- The root element is the one that the operation answers with. -/
def expectRoot (xml : XmlReader) (body : Bytes) (maximum : Nat)
    (expected : Str) : Except ProtocolError Unit :=
  match boundedText body maximum with
  | .error e => .error e
  | .ok text =>
      match xml.rootName text with
      | .error fault => .error (.invalidXml fault)
      | .ok name =>
          if name = expected then .ok ()
          else .error
            (.invalidXml (.text ("unexpected root element ".toList ++ name)))

end Bounded

/-! ## Fields -/

section Fields

variable (xml : XmlReader)

/-- A time, or the error that names its field. -/
def parseTime (field value : Str) : Except ProtocolError Int :=
  match xml.parseRfc3339 value with
  | .error reason => .error (.invalidField field reason)
  | .ok time => .ok time

/-- A key, or the error that names its field. -/
def parseKey (field value : Str) : Except ProtocolError ObjectKey :=
  match ObjectKey.new value with
  | .error e => .error (.invalidField field e.toString)
  | .ok key => .ok key

/-- An upload id, or the error that names its field. -/
def parseUploadId (field value : Str) : Except ProtocolError UploadId :=
  match UploadId.new value with
  | .error e => .error (.invalidField field e.toString)
  | .ok uploadId => .ok uploadId

/-- A part number, or what both of its fields say when it is none. -/
def parsePartNumber (field : Str) (value : UInt16) :
    Except ProtocolError PartNumber :=
  match PartNumber.new value.toNat with
  | none => .error (.invalidField field "part number is outside 1..=10000")
  | some number => .ok number

/-- `hex_value`. -/
def hexOctet (b : UInt8) : Option Nat := Lib.hexValue (Char.ofNat b.toNat)

/-- The loop of `decode_url_field`. -/
def decodeOctets (field : Str) : Bytes → Except ProtocolError Bytes
  | [] => .ok []
  | b :: rest =>
      if b = 37 then
        match rest with
        | high :: low :: tail =>
            match hexOctet high, hexOctet low with
            | some h, some l => do
                let decoded ← decodeOctets field tail
                return UInt8.ofNat (16 * h + l) :: decoded
            | _, _ =>
                .error (.invalidField field "invalid URL percent encoding")
        | _ => .error (.invalidField field "invalid URL percent encoding")
      else do
        let decoded ← decodeOctets field rest
        return b :: decoded

/-- A field of a listing that asked for URL encoding. -/
def decodeUrlField (field value : Str) : Except ProtocolError Str := do
  let decoded ← decodeOctets field (Lib.utf8 value)
  match Lib.utf8Decode decoded with
  | none =>
      .error (.invalidField field
        ("URL-decoded value is not UTF-8: ".toList ++ xml.utf8Error decoded))
  | some text => return text

def ChecksumType.parse (value : Str) : ChecksumType :=
  if value = "COMPOSITE".toList then .composite
  else if value = "FULL_OBJECT".toList then .fullObject
  else .unknown value

end Fields

/-! ## Pages -/

section Pages

variable (xml : XmlReader)

def listedObject (object : ObjectDocument) :
    Except ProtocolError ListedObject := do
  let decodedKey ← decodeUrlField xml "Contents.Key" object.key
  let key ← parseKey "Contents.Key" decodedKey
  let lastModified ← object.lastModified.mapM
    (parseTime xml "Contents.LastModified")
  return {
    key := key
    lastModified := lastModified
    eTag := object.eTag
    size := object.size
    storageClass := object.storageClass
    owner := object.owner
    checksumAlgorithms := object.checksumAlgorithms
    checksumType := object.checksumType.map ChecksumType.parse }

/-- `parse_list_objects_v2`. -/
def parseListObjectsV2 (body : Bytes) (maximum : Nat) :
    Except ProtocolError ListObjectsV2Output := do
  let () ← expectRoot xml body maximum "ListBucketResult"
  let document ← parseBounded xml.listBucket body maximum
  if document.encodingType ≠ some "url".toList then
    .error (.invalidField "EncodingType"
      "expected url encoding requested by the client")
  else
    let objects ← document.contents.mapM (listedObject xml)
    let commonPrefixes ← document.commonPrefixes.mapM
      (decodeUrlField xml "CommonPrefixes.Prefix")
    return {
      objects := objects
      commonPrefixes := commonPrefixes
      isTruncated := document.isTruncated
      nextContinuationToken := document.nextContinuationToken
      keyCount := document.keyCount
      requestIds := ⟨none, none⟩ }

def uploadEntry (upload : UploadDocument) :
    Except ProtocolError MultipartUploadEntry := do
  let uploadId ← parseUploadId "Upload.UploadId" upload.uploadId
  let initiated ← upload.initiated.mapM (parseTime xml "Upload.Initiated")
  let key ← parseKey "Upload.Key" upload.key
  return ⟨key, uploadId, initiated, upload.storageClass⟩

/-- `parse_list_multipart_uploads`. -/
def parseListMultipartUploads (body : Bytes) (maximum : Nat) :
    Except ProtocolError ListMultipartUploadsOutput := do
  let () ← expectRoot xml body maximum "ListMultipartUploadsResult"
  let document ← parseBounded xml.listUploads body maximum
  let uploads ← document.uploads.mapM (uploadEntry xml)
  let nextUploadIdMarker ←
    (document.nextUploadIdMarker.filter fun value => !value.isEmpty).mapM
      (parseUploadId "NextUploadIdMarker")
  return {
    uploads := uploads
    commonPrefixes := document.commonPrefixes
    isTruncated := document.isTruncated
    nextKeyMarker := document.nextKeyMarker.filter fun value => !value.isEmpty
    nextUploadIdMarker := nextUploadIdMarker
    requestIds := ⟨none, none⟩ }

/-- The checks of one part, after the part `previous`. -/
def listedPart (previous : Option PartNumber) (part : PartDocument) :
    Except ProtocolError ListedPart := do
  let number ← parsePartNumber "Part.PartNumber" part.partNumber
  if previous.any fun value => number.get ≤ value.get then
    .error (.invalidField "Part.PartNumber"
      "parts are not in strictly ascending order")
  else if part.eTag.isBlank then
    .error (.invalidField "Part.ETag" "ETag is empty")
  else
    let lastModified ← part.lastModified.mapM
      (parseTime xml "Part.LastModified")
    return ⟨number, part.eTag, lastModified, part.size, part.checksum⟩

/-- The loop over the parts of a page. -/
def listedParts : Option PartNumber → List PartDocument →
    Except ProtocolError (List ListedPart)
  | _, [] => .ok []
  | previous, part :: rest => do
      let listed ← listedPart xml previous part
      let parts ← listedParts (some listed.partNumber) rest
      return listed :: parts

/-- `parse_list_parts`. -/
def parseListParts (body : Bytes) (maximum : Nat) :
    Except ProtocolError ListPartsOutput := do
  let () ← expectRoot xml body maximum "ListPartsResult"
  let document ← parseBounded xml.listParts body maximum
  let parts ← listedParts xml none document.parts
  let nextPartNumberMarker ← document.nextPartNumberMarker.mapM
    (parsePartNumber "NextPartNumberMarker")
  return {
    parts := parts
    isTruncated := document.isTruncated
    nextPartNumberMarker := nextPartNumberMarker
    checksumAlgorithm := document.checksumAlgorithm
    checksumType := document.checksumType.map ChecksumType.parse
    requestIds := ⟨none, none⟩ }

end Pages

/-! ## What is checked of a page of parts -/

section Parts

variable {xml : XmlReader}

theorem listedPart_ok {previous : Option PartNumber} {part : PartDocument}
    {listed : ListedPart} (h : listedPart xml previous part = .ok listed) :
    listed.eTag.isBlank = false ∧ ∀ number ∈ previous,
      number.get < listed.number := by
  obtain ⟨number, -, h⟩ := Lib.bind_ok h
  split at h
  · cases h
  · next hascending =>
      split at h
      · cases h
      · next htagged =>
          obtain ⟨lastModified, -, h⟩ := Lib.bind_ok h
          cases h
          refine ⟨Bool.eq_false_iff.mpr htagged, ?_⟩
          intro before hbefore
          obtain rfl := Option.mem_def.mp hbefore
          rw [Option.any_some, decide_eq_true_eq] at hascending
          exact not_le.mp hascending

theorem listedParts_ok :
    ∀ {documents : List PartDocument} {previous : Option PartNumber}
    {parts : List ListedPart}, listedParts xml previous documents = .ok parts →
      (∀ part ∈ parts, part.eTag.isBlank = false) ∧
      Lib.KeySorted ListedPart.number parts ∧
        ∀ number ∈ previous, ∀ part ∈ parts, number.get < part.number
  | [], previous, parts, h => by
      cases h
      exact ⟨nofun, List.Pairwise.nil, fun _ _ => nofun⟩
  | document :: documents, previous, parts, h => by
      obtain ⟨listed, hlisted, h⟩ := Lib.bind_ok h
      obtain ⟨rest, hrest, h⟩ := Lib.bind_ok h
      cases h
      obtain ⟨htagged, hafter⟩ := listedPart_ok hlisted
      obtain ⟨htags, hsorted, habove⟩ := listedParts_ok hrest
      have hfirst : ∀ part ∈ rest, listed.number < part.number :=
        habove listed.partNumber rfl
      refine ⟨List.forall_mem_cons.mpr ⟨htagged, htags⟩,
        List.pairwise_cons.mpr ⟨hfirst, hsorted⟩, ?_⟩
      intro number hnumber
      refine List.forall_mem_cons.mpr ⟨hafter number hnumber, ?_⟩
      intro part hpart
      exact (hafter number hnumber).trans (hfirst part hpart)

theorem parseListParts_ok {body : Bytes} {maximum : Nat}
    {page : ListPartsOutput} (h : parseListParts xml body maximum = .ok page) :
    (∀ part ∈ page.parts, part.eTag.isBlank = false) ∧
    Lib.KeySorted ListedPart.number page.parts := by
  obtain ⟨_, -, h⟩ := Lib.bind_ok h
  obtain ⟨document, -, h⟩ := Lib.bind_ok h
  obtain ⟨parts, hparts, h⟩ := Lib.bind_ok h
  obtain ⟨marker, -, h⟩ := Lib.bind_ok h
  cases h
  obtain ⟨htags, hsorted, -⟩ := listedParts_ok hparts
  exact ⟨htags, hsorted⟩

end Parts

end S3Wire
