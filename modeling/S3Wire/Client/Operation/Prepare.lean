/-
# `S3Wire.Client.Operation.Prepare` — every operation up to its first request

The primitive operations of `src/client/object/operations.rs`,
`src/client/object/listing.rs` and `src/client/multipart/`, each from its typed
request to the arguments of `send_signed`: the method, the target, the query,
the headers and the prepared body, in the order in which the source looks for
errors.  What is an error here is an operation that never sends.

`PrimitiveOperation.Sends` is an operation as far as it can be seen from
outside: the preparation, and then a run of `SendState`.
-/
import S3Wire.Client.Operation.Headers
import S3Wire.Client.Request.Execute
import S3Wire.Operation.MultipartRequest
import S3Wire.Protocol.Delete

namespace S3Wire

/-- What an operation meets before it sends: its deadline and its body, the
dates and the digest that other libraries make, and its own parsers of an error
in a success, which are given here because they rest on the XML library
(`ResultReader.equip` has them). -/
structure OperationEnv where
  /-- The deadline of the operation. -/
  deadline : Instant
  /-- What the file system shows of the body, or `none` when the deadline fires
  first. -/
  prepared : Option FileReads
  formatHttpDate : Int → Str
  md5 : Bytes → Bytes
  copyEmbeddedError : EmbeddedErrorParser
  uploadPartCopyEmbeddedError : EmbeddedErrorParser
  completeMultipartEmbeddedError : EmbeddedErrorParser

namespace OperationEnv

/-- `OperationDeadline::prepare_body`. -/
def prepareBody (env : OperationEnv) (sha : Sha256) (body : UploadSource) :
    Except S3Error PreparedBody :=
  match env.prepared with
  | none => .error operationTimeout
  | some file => body.prepare sha file

/-- The body of a document, whose length fits 64 bits as that of every
vector. -/
def prepareDocument (env : OperationEnv) (sha : Sha256) (document : Bytes) :
    Except S3Error PreparedBody :=
  if h : document.length < 2 ^ 64 then
    env.prepareBody sha (.bytes ⟨document, h⟩)
  else .error
    (S3Error.configuration "in-memory body length does not fit in u64")

end OperationEnv

/-- `result.map_err(protocol_error)`. -/
def orProtocolError {α : Type} (result : Except ProtocolError α) :
    Except S3Error α :=
  match result with
  | .ok value => .ok value
  | .error e => .error (protocolError e)

theorem orProtocolError_ok {α : Type} {result : Except ProtocolError α}
    {value : α} (h : orProtocolError result = .ok value) :
    result = .ok value := by
  rw [orProtocolError.eq_def] at h
  split at h
  · cases h
    rfl
  · cases h

/-! ## Queries -/

/-- `optional_query` and `push_optional_query`. -/
def optionalQuery (name : Str) (value : Option Str) : List QueryParam :=
  value.toList.map (⟨name, ·⟩)

def uploadQuery (uploadId : UploadId) : List QueryParam :=
  [⟨"uploadId", uploadId.text⟩]

/-- The number comes first. -/
def uploadPartQuery (partNumber : PartNumber) (uploadId : UploadId) :
    List QueryParam :=
  [⟨"partNumber", decimal partNumber.get⟩, ⟨"uploadId", uploadId.text⟩]

def createQuery : List QueryParam := [⟨"uploads", []⟩]

/-- The parameters of a page of objects. -/
def listObjectsV2Query (request : ListObjectsV2Request) : List QueryParam :=
  [⟨"list-type", "2"⟩, ⟨"max-keys", decimal request.maxKeys.get⟩,
    ⟨"encoding-type", "url"⟩] ++
    optionalQuery "prefix" request.keyPrefix ++
    optionalQuery "delimiter" request.delimiter ++
    optionalQuery "continuation-token" request.continuationToken ++
    optionalQuery "start-after" (request.startAfter.map ObjectKey.text) ++
    if request.fetchOwner then [⟨"fetch-owner", "true"⟩] else []

/-- The parameters of a page of parts. -/
def listPartsQuery (request : ListPartsRequest) : List QueryParam :=
  [⟨"max-parts", decimal request.maxParts.get⟩,
    ⟨"uploadId", request.uploadId.text⟩] ++
    optionalQuery "part-number-marker"
      (request.partNumberMarker.map fun marker => decimal marker.get)

/-- `list_query`. -/
def listUploadsQuery (request : ListMultipartUploadsRequest) :
    Except S3Error (List QueryParam) :=
  if request.uploadIdMarker.isSome ∧ request.keyMarker.isNone then
    .error (S3Error.configuration "an upload-ID marker requires a key marker")
  else
    .ok (createQuery ++
      optionalQuery "delimiter" request.delimiter ++
      optionalQuery "key-marker" request.keyMarker ++
      [⟨"max-uploads", decimal request.maxUploads.get⟩] ++
      optionalQuery "prefix" request.keyPrefix ++
      optionalQuery "upload-id-marker"
        (request.uploadIdMarker.map UploadId.text))

/-! ## The operations -/

namespace S3Client

variable (client : S3Client) (env : OperationEnv)

/-- Where a request for this key goes. -/
def operationTarget (key : Option ObjectKey) : Except S3Error EndpointUrl :=
  client.config.operationTarget client.grammar (key.map ObjectKey.text)

section Object

/-- What `put_object` sends. -/
def putObject (request : PutObjectRequest) : Except S3Error SignedSend := do
  let prepared ← env.prepareBody client.crypto.sha request.body
  let headers ← requestHeaders request.headers
  let headers ← insertOptionalHeader headers .contentType request.contentType
  let headers ← insertConditions env.formatHttpDate headers request.conditions
    []
  let headers ← insertUserMetadata headers request.userMetadata
  let headers ← insertUploadChecksum headers request.checksumAlgorithm prepared
  let target ← client.operationTarget (some request.key)
  return {
    method := "PUT"
    target := target
    query := []
    headers := headers
    body := some prepared
    deadline := env.deadline
    successMode := .streaming }

/-- What `get_object` sends. -/
def getObject (request : GetObjectRequest) : Except S3Error SignedSend := do
  let headers ← requestHeaders request.headers
  let headers ← insertConditions env.formatHttpDate headers request.conditions
    []
  let headers ← insertHeader headers
    (.fromStatic "x-amz-checksum-mode" (by decide)) "ENABLED"
  let headers ← insertOptionalHeader headers (.fromStatic "range" (by decide))
    (request.range.map ByteRange.toHeaderValue)
  let target ← client.operationTarget (some request.key)
  return {
    method := "GET"
    target := target
    query := optionalQuery "versionId" request.versionId
    headers := headers
    body := none
    deadline := env.deadline
    successMode := .streaming }

/-- What `head_object` sends. -/
def headObject (request : HeadObjectRequest) : Except S3Error SignedSend := do
  let headers ← requestHeaders request.headers
  let headers ← insertConditions env.formatHttpDate headers request.conditions
    []
  let headers ← insertHeader headers
    (.fromStatic "x-amz-checksum-mode" (by decide)) "ENABLED"
  let target ← client.operationTarget (some request.key)
  return {
    method := "HEAD"
    target := target
    query := optionalQuery "versionId" request.versionId
    headers := headers
    body := none
    deadline := env.deadline
    successMode := .streaming }

/-- What `delete_object` sends. -/
def deleteObject (request : DeleteObjectRequest) : Except S3Error SignedSend :=
  do
  let headers ← requestHeaders request.headers
  let headers ← insertOptionalHeader headers
    (.fromStatic "if-match" (by decide)) request.ifMatch
  let target ← client.operationTarget (some request.key)
  return {
    method := "DELETE"
    target := target
    query := optionalQuery "versionId" request.versionId
    headers := headers
    body := none
    deadline := env.deadline
    successMode := .streaming }

/-- What `delete_objects` sends. -/
def deleteObjects (request : DeleteObjectsRequest) :
    Except S3Error SignedSend := do
  let xml ← orProtocolError
    (serializeDeleteObjects request client.config.maxXmlResponseSize)
  let contentMd5 := Lib.base64Encode (env.md5 xml)
  let prepared ← env.prepareDocument client.crypto.sha xml
  let headers ← requestHeaders request.headers
  let headers ← insertHeader headers .contentType "application/xml"
  let headers ← insertHeader headers
    (.fromStatic "content-md5" (by decide)) contentMd5
  let target ← client.operationTarget none
  return {
    method := "POST"
    target := target
    query := [⟨"delete", []⟩]
    headers := headers
    body := some prepared
    deadline := env.deadline
    successMode := .streaming }

/-- The `match` on the metadata directive. -/
def insertDirective (headers : HeaderMap) : CopyMetadataDirective →
    Except S3Error HeaderMap
  | .copy => .ok headers
  | .replace contentType userMetadata => do
      let headers ← insertOptionalHeader headers .contentType contentType
      let headers ← insertUserMetadata headers userMetadata
      insertHeader headers
        (.fromStatic "x-amz-metadata-directive" (by decide)) "REPLACE"

/-- What `copy_object` sends. -/
def copyObject (request : CopyObjectRequest) : Except S3Error SignedSend := do
  let headers ← requestHeaders request.headers
  let headers ← insertHeader headers
    (.fromStatic "x-amz-copy-source" (by decide))
    (copySourceHeader request.source)
  let headers ← insertConditions env.formatHttpDate headers
    request.sourceConditions "x-amz-copy-source-"
  let headers ← insertDirective headers request.metadata
  let target ← client.operationTarget (some request.destination)
  return {
    method := "PUT"
    target := target
    query := []
    headers := headers
    body := none
    deadline := env.deadline
    successMode :=
      .collectedXml client.config.maxXmlResponseSize env.copyEmbeddedError }

/-- `list_objects_v2_with_deadline`. -/
def listObjectsV2 (request : ListObjectsV2Request) :
    Except S3Error SignedSend := do
  let target ← client.operationTarget none
  let headers ← requestHeaders request.headers
  return {
    method := "GET"
    target := target
    query := listObjectsV2Query request
    headers := headers
    body := none
    deadline := env.deadline
    successMode := .streaming }

end Object

section Multipart

/-- What `create_multipart_upload` sends. -/
def createMultipartUpload (request : CreateMultipartUploadRequest) :
    Except S3Error SignedSend := do
  let target ← client.operationTarget (some request.key)
  let headers ← createHeaders request
  return {
    method := "POST"
    target := target
    query := createQuery
    headers := headers
    body := none
    deadline := env.deadline
    successMode := .streaming }

/-- What `upload_part` sends. -/
def uploadPart (request : StreamPartRequest) : Except S3Error SignedSend := do
  let target ← client.operationTarget (some request.key)
  let headers ← checksumHeaders request.checksum request.headers
  let body ← env.prepareBody client.crypto.sha request.body
  return {
    method := "PUT"
    target := target
    query := uploadPartQuery request.partNumber request.uploadId
    headers := headers
    body := some body
    deadline := env.deadline
    successMode := .streaming }

/-- What `upload_part_copy` sends. -/
def uploadPartCopy (request : UploadPartCopyRequest) :
    Except S3Error SignedSend := do
  let headers ← requestHeaders request.headers
  let headers ← insertHeader headers
    (.fromStatic "x-amz-copy-source" (by decide))
    (copySourceHeader request.source)
  let headers ← insertOptionalHeader headers
    (.fromStatic "x-amz-copy-source-range" (by decide))
    (request.sourceRange.map CopyPartRange.headerValue)
  let headers ← insertConditions env.formatHttpDate headers
    request.sourceConditions "x-amz-copy-source-"
  let target ← client.operationTarget (some request.destination)
  return {
    method := "PUT"
    target := target
    query := uploadPartQuery request.partNumber request.uploadId
    headers := headers
    body := none
    deadline := env.deadline
    successMode :=
      .collectedXml client.config.maxXmlResponseSize
        env.uploadPartCopyEmbeddedError }

/-- What `complete_multipart_upload` sends. -/
def completeMultipartUpload (request : CompleteMultipartUploadRequest) :
    Except S3Error SignedSend := do
  let target ← client.operationTarget (some request.key)
  let document ← orProtocolError
    (serializeCompleteMultipartUpload request client.config.maxXmlResponseSize)
  let body ← env.prepareDocument client.crypto.sha document
  let headers ← requestHeaders request.headers
  let headers ← insertHeader headers .contentType "application/xml"
  return {
    method := "POST"
    target := target
    query := uploadQuery request.uploadId
    headers := headers
    body := some body
    deadline := env.deadline
    successMode :=
      .collectedXml client.config.maxXmlResponseSize
        env.completeMultipartEmbeddedError }

/-- What `abort_multipart_upload` sends. -/
def abortMultipartUpload (request : AbortMultipartUploadRequest) :
    Except S3Error SignedSend := do
  let target ← client.operationTarget (some request.key)
  let headers ← requestHeaders request.headers
  return {
    method := "DELETE"
    target := target
    query := uploadQuery request.uploadId
    headers := headers
    body := none
    deadline := env.deadline
    successMode := .streaming }

/-- `list_parts_with_deadline`. -/
def listParts (request : ListPartsRequest) : Except S3Error SignedSend := do
  let target ← client.operationTarget (some request.key)
  let headers ← requestHeaders request.headers
  return {
    method := "GET"
    target := target
    query := listPartsQuery request
    headers := headers
    body := none
    deadline := env.deadline
    successMode := .streaming }

/-- `list_multipart_uploads_with_deadline`. -/
def listMultipartUploads (request : ListMultipartUploadsRequest) :
    Except S3Error SignedSend := do
  let target ← client.operationTarget none
  let query ← listUploadsQuery request
  let headers ← requestHeaders request.headers
  return {
    method := "GET"
    target := target
    query := query
    headers := headers
    body := none
    deadline := env.deadline
    successMode := .streaming }

end Multipart

end S3Client

/-! ## Any of them -/

/-- An operation of the client that sends one request, with the request its
caller made. -/
inductive PrimitiveOperation where
  | putObject (request : PutObjectRequest)
  | getObject (request : GetObjectRequest)
  | headObject (request : HeadObjectRequest)
  | deleteObject (request : DeleteObjectRequest)
  | deleteObjects (request : DeleteObjectsRequest)
  | copyObject (request : CopyObjectRequest)
  | listObjectsV2 (request : ListObjectsV2Request)
  | createMultipartUpload (request : CreateMultipartUploadRequest)
  | uploadPart (request : StreamPartRequest)
  | uploadPartCopy (request : UploadPartCopyRequest)
  | completeMultipartUpload (request : CompleteMultipartUploadRequest)
  | abortMultipartUpload (request : AbortMultipartUploadRequest)
  | listParts (request : ListPartsRequest)
  | listMultipartUploads (request : ListMultipartUploadsRequest)

namespace PrimitiveOperation

/-- The headers that the caller asked for. -/
def headers : PrimitiveOperation → HeaderMap
  | putObject request => request.headers
  | getObject request => request.headers
  | headObject request => request.headers
  | deleteObject request => request.headers
  | deleteObjects request => request.headers
  | copyObject request => request.headers
  | listObjectsV2 request => request.headers
  | createMultipartUpload request => request.headers
  | uploadPart request => request.headers
  | uploadPartCopy request => request.headers
  | completeMultipartUpload request => request.headers
  | abortMultipartUpload request => request.headers
  | listParts request => request.headers
  | listMultipartUploads request => request.headers

/-- The operation up to its first request. -/
def prepare (client : S3Client) (env : OperationEnv) : PrimitiveOperation →
    Except S3Error SignedSend
  | putObject request => client.putObject env request
  | getObject request => client.getObject env request
  | headObject request => client.headObject env request
  | deleteObject request => client.deleteObject env request
  | deleteObjects request => client.deleteObjects env request
  | copyObject request => client.copyObject env request
  | listObjectsV2 request => client.listObjectsV2 env request
  | createMultipartUpload request => client.createMultipartUpload env request
  | uploadPart request => client.uploadPart env request
  | uploadPartCopy request => client.uploadPartCopy env request
  | completeMultipartUpload request =>
      client.completeMultipartUpload env request
  | abortMultipartUpload request => client.abortMultipartUpload env request
  | listParts request => client.listParts env request
  | listMultipartUploads request => client.listMultipartUploads env request

/-- What an operation can have sent at some point of some run. -/
inductive Sends (client : S3Client) (env : OperationEnv)
    (operation : PrimitiveOperation) :
    List Transmission → Prop
  | refused {e : S3Error} (h : operation.prepare client env = .error e) :
  Sends client env operation []
  | sending {call : SignedSend} {started : Instant} {labels : List SendLabel}
      {s : SendState}
      (h : operation.prepare client env = .ok call)
      (hreach : s.Reaches client call started labels) :
      Sends client env operation (transmissions s.log)

end PrimitiveOperation

end S3Wire
