/-
# `S3Wire.Client.Operation.Union` — what every operation passes to request execution

The method, the target, the query and the mode of an operation, and its headers:
what the caller asked for and what its typed fields generate
(`PrimitiveOperation.generated`), side by side.  None of the headers has a name
that signing writes, so the signed requests carry them unchanged, in every
attempt.

The operations differ in their helpers and in the order of their checks, so each
has a lemma of its own (`.._built`); what is said of all of them is said once
(`headers_disjoint`).
-/
import S3Wire.Client.Operation.Prepare

namespace S3Wire

/-! ## What each operation sends -/

namespace PrimitiveOperation

def method : PrimitiveOperation → Str
  | putObject _ => "PUT"
  | getObject _ => "GET"
  | headObject _ => "HEAD"
  | deleteObject _ => "DELETE"
  | deleteObjects _ => "POST"
  | copyObject _ => "PUT"
  | listObjectsV2 _ => "GET"
  | createMultipartUpload _ => "POST"
  | uploadPart _ => "PUT"
  | uploadPartCopy _ => "PUT"
  | completeMultipartUpload _ => "POST"
  | abortMultipartUpload _ => "DELETE"
  | listParts _ => "GET"
  | listMultipartUploads _ => "GET"

def key : PrimitiveOperation → Option ObjectKey
  | putObject request => some request.key
  | getObject request => some request.key
  | headObject request => some request.key
  | deleteObject request => some request.key
  | deleteObjects _ => none
  | copyObject request => some request.destination
  | listObjectsV2 _ => none
  | createMultipartUpload request => some request.key
  | uploadPart request => some request.key
  | uploadPartCopy request => some request.destination
  | completeMultipartUpload request => some request.key
  | abortMultipartUpload request => some request.key
  | listParts request => some request.key
  | listMultipartUploads _ => none

def query : PrimitiveOperation → Except S3Error (List QueryParam)
  | putObject _ => .ok []
  | getObject request => .ok (optionalQuery "versionId" request.versionId)
  | headObject request => .ok (optionalQuery "versionId" request.versionId)
  | deleteObject request => .ok (optionalQuery "versionId" request.versionId)
  | deleteObjects _ => .ok [⟨"delete", []⟩]
  | copyObject _ => .ok []
  | listObjectsV2 request => .ok (listObjectsV2Query request)
  | createMultipartUpload _ => .ok createQuery
  | uploadPart request =>
      .ok (uploadPartQuery request.partNumber request.uploadId)
  | uploadPartCopy request =>
      .ok (uploadPartQuery request.partNumber request.uploadId)
  | completeMultipartUpload request => .ok (uploadQuery request.uploadId)
  | abortMultipartUpload request => .ok (uploadQuery request.uploadId)
  | listParts request => .ok (listPartsQuery request)
  | listMultipartUploads request => listUploadsQuery request

/-- What a success of the operation is taken for. -/
def mode (client : S3Client) (env : OperationEnv) : PrimitiveOperation →
    SuccessMode
  | copyObject _ =>
    .collectedXml client.config.maxXmlResponseSize env.copyEmbeddedError
  | uploadPartCopy _ =>
      .collectedXml client.config.maxXmlResponseSize
        env.uploadPartCopyEmbeddedError
  | completeMultipartUpload _ =>
      .collectedXml client.config.maxXmlResponseSize
        env.completeMultipartEmbeddedError
  | _ => .streaming

end PrimitiveOperation

/-- The headers of the typed fields, in the order in which they are inserted. -/
def PrimitiveOperation.generated (env : OperationEnv)
    (body : Option PreparedBody) :
    PrimitiveOperation → List Header
  | .putObject request =>
      optionalEntry "content-type" request.contentType ++
        (request.conditions.entries env.formatHttpDate [] ++
          (metadataEntries request.userMetadata ++
            body.toList.flatMap
              (uploadChecksumEntries request.checksumAlgorithm)))
  | .getObject request =>
      request.conditions.entries env.formatHttpDate [] ++
        ([⟨"x-amz-checksum-mode", "ENABLED"⟩] ++
          optionalEntry "range" (request.range.map ByteRange.toHeaderValue))
  | .headObject request =>
      request.conditions.entries env.formatHttpDate [] ++
        [⟨"x-amz-checksum-mode", "ENABLED"⟩]
  | .deleteObject request => optionalEntry "if-match" request.ifMatch
  | .deleteObjects request =>
      [⟨"content-type", "application/xml"⟩] ++
        [⟨"content-md5",
          Lib.base64Encode
            (env.md5 (Lib.utf8 (deleteDocument request.document).flatten))⟩]
  | .copyObject request =>
      [⟨"x-amz-copy-source", copySourceHeader request.source⟩] ++
        (request.sourceConditions.entries env.formatHttpDate
          "x-amz-copy-source-" ++
          match request.metadata with
          | .copy => []
          | .replace contentType userMetadata =>
              optionalEntry "content-type" contentType ++
                (metadataEntries userMetadata ++
                  [⟨"x-amz-metadata-directive", "REPLACE"⟩]))
  | .listObjectsV2 _ => []
  | .createMultipartUpload request => request.entries
  | .uploadPart request => request.checksum.entries
  | .uploadPartCopy request =>
      [⟨"x-amz-copy-source", copySourceHeader request.source⟩] ++
        (optionalEntry "x-amz-copy-source-range"
          (request.sourceRange.map CopyPartRange.headerValue) ++
          request.sourceConditions.entries env.formatHttpDate
            "x-amz-copy-source-")
  | .completeMultipartUpload _ => [⟨"content-type", "application/xml"⟩]
  | .abortMultipartUpload _ => []
  | .listParts _ => []
  | .listMultipartUploads _ => []

/-- The call is that of the operation: the caller's headers were looked through,
and the generated ones were inserted one by one. -/
structure Built (client : S3Client) (env : OperationEnv)
    (operation : PrimitiveOperation) (call : SignedSend) : Prop where
  method : call.method = operation.method
  target : client.operationTarget operation.key = .ok call.target
  query : operation.query = .ok call.query
  mode : call.successMode = operation.mode client env
  checked : requestHeaders operation.headers = .ok operation.headers
  extended :
    Extends operation.headers (operation.generated env call.body) call.headers

namespace S3Client

section Object

variable {α : Type} {client : S3Client} {env : OperationEnv} {call : SignedSend}

/-- A call goes on with the headers of its caller. -/
theorem caller_ok {headers : HeaderMap} {f : HeaderMap → Except S3Error α}
    {value : α} (h : (requestHeaders headers >>= f) = .ok value) :
    requestHeaders headers = .ok headers ∧ f headers = .ok value := by
  obtain ⟨_, hcaller, hrest⟩ := Lib.bind_ok h
  obtain ⟨rfl, -⟩ := requestHeaders_ok hcaller
  exact ⟨hcaller, hrest⟩

theorem putObject_built {request : PutObjectRequest}
    (h : client.putObject env request = .ok call) :
    Built client env (.putObject request) call := by
  obtain ⟨prepared, hprepared, h⟩ := Lib.bind_ok h
  obtain ⟨hchecked, h⟩ := caller_ok h
  obtain ⟨headers₁, h₁, h⟩ := Lib.bind_ok h
  obtain ⟨headers₂, h₂, h⟩ := Lib.bind_ok h
  obtain ⟨headers₃, h₃, h⟩ := Lib.bind_ok h
  obtain ⟨headers₄, h₄, h⟩ := Lib.bind_ok h
  obtain ⟨target, htarget, h⟩ := Lib.bind_ok h
  cases h
  refine ⟨rfl, htarget, rfl, rfl, hchecked,
    (insertOptionalHeader_extends (.fromStatic _ (by decide)) h₁).trans
    ((insertConditions_extends (Or.inl rfl) h₂).trans
      ((insertUserMetadata_extends h₃).trans ?_))⟩
  show Extends headers₃
    ([prepared].flatMap (uploadChecksumEntries request.checksumAlgorithm))
      headers₄
  rw [List.flatMap_singleton]
  exact insertUploadChecksum_extends h₄

theorem getObject_built {request : GetObjectRequest}
    (h : client.getObject env request = .ok call) :
    Built client env (.getObject request) call := by
  obtain ⟨hchecked, h⟩ := caller_ok h
  obtain ⟨headers₁, h₁, h⟩ := Lib.bind_ok h
  obtain ⟨headers₂, h₂, h⟩ := Lib.bind_ok h
  obtain ⟨headers₃, h₃, h⟩ := Lib.bind_ok h
  obtain ⟨target, htarget, h⟩ := Lib.bind_ok h
  cases h
  exact ⟨rfl, htarget, rfl, rfl, hchecked,
    (insertConditions_extends (Or.inl rfl) h₁).trans
    ((insertHeader_extends (.fromStatic _ (by decide)) h₂).trans
      (insertOptionalHeader_extends (.fromStatic _ (by decide)) h₃))⟩

theorem headObject_built {request : HeadObjectRequest}
    (h : client.headObject env request = .ok call) :
    Built client env (.headObject request) call := by
  obtain ⟨hchecked, h⟩ := caller_ok h
  obtain ⟨headers₁, h₁, h⟩ := Lib.bind_ok h
  obtain ⟨headers₂, h₂, h⟩ := Lib.bind_ok h
  obtain ⟨target, htarget, h⟩ := Lib.bind_ok h
  cases h
  exact ⟨rfl, htarget, rfl, rfl, hchecked,
    (insertConditions_extends (Or.inl rfl) h₁).trans
    (insertHeader_extends (.fromStatic _ (by decide)) h₂)⟩

theorem deleteObject_built {request : DeleteObjectRequest}
    (h : client.deleteObject env request = .ok call) :
    Built client env (.deleteObject request) call := by
  obtain ⟨hchecked, h⟩ := caller_ok h
  obtain ⟨headers₁, h₁, h⟩ := Lib.bind_ok h
  obtain ⟨target, htarget, h⟩ := Lib.bind_ok h
  cases h
  exact ⟨rfl, htarget, rfl, rfl, hchecked,
    insertOptionalHeader_extends (.fromStatic _ (by decide)) h₁⟩

theorem deleteObjects_built {request : DeleteObjectsRequest}
    (h : client.deleteObjects env request = .ok call) :
    Built client env (.deleteObjects request) call := by
  obtain ⟨xml, hxml, h⟩ := Lib.bind_ok h
  obtain rfl := serializeBounded_ok (orProtocolError_ok hxml)
  obtain ⟨prepared, hprepared, h⟩ := Lib.bind_ok h
  obtain ⟨hchecked, h⟩ := caller_ok h
  obtain ⟨headers₁, h₁, h⟩ := Lib.bind_ok h
  obtain ⟨headers₂, h₂, h⟩ := Lib.bind_ok h
  obtain ⟨target, htarget, h⟩ := Lib.bind_ok h
  cases h
  exact ⟨rfl, htarget, rfl, rfl, hchecked,
    (insertHeader_extends (.fromStatic _ (by decide)) h₁).trans
    (insertHeader_extends (.fromStatic _ (by decide)) h₂)⟩

theorem copyObject_built {request : CopyObjectRequest}
    (h : client.copyObject env request = .ok call) :
    Built client env (.copyObject request) call := by
  obtain ⟨hchecked, h⟩ := caller_ok h
  obtain ⟨headers₁, h₁, h⟩ := Lib.bind_ok h
  obtain ⟨headers₂, h₂, h⟩ := Lib.bind_ok h
  obtain ⟨headers₃, h₃, h⟩ := Lib.bind_ok h
  obtain ⟨target, htarget, h⟩ := Lib.bind_ok h
  cases h
  refine ⟨rfl, htarget, rfl, rfl, hchecked,
    (insertHeader_extends (.fromStatic _ (by decide)) h₁).trans
    ((insertConditions_extends (Or.inr rfl) h₂).trans ?_)⟩
  obtain ⟨source, destination, sourceConditions, metadata, headers⟩ := request
  cases metadata with
  | copy =>
      cases h₃
      exact .refl _
  | replace contentType userMetadata =>
      obtain ⟨headers₄, h₄, h₃⟩ := Lib.bind_ok h₃
      obtain ⟨headers₅, h₅, h₃⟩ := Lib.bind_ok h₃
      exact (insertOptionalHeader_extends (.fromStatic _ (by decide)) h₄).trans
        ((insertUserMetadata_extends h₅).trans
          (insertHeader_extends (.fromStatic _ (by decide)) h₃))

theorem listObjectsV2_built {request : ListObjectsV2Request}
    (h : client.listObjectsV2 env request = .ok call) :
    Built client env (.listObjectsV2 request) call := by
  obtain ⟨target, htarget, h⟩ := Lib.bind_ok h
  obtain ⟨hchecked, h⟩ := caller_ok h
  cases h
  exact ⟨rfl, htarget, rfl, rfl, hchecked, .refl _⟩

end Object

section Multipart

variable {client : S3Client} {env : OperationEnv} {call : SignedSend}

theorem createMultipartUpload_built {request : CreateMultipartUploadRequest}
    (h : client.createMultipartUpload env request = .ok call) :
    Built client env (.createMultipartUpload request) call := by
  obtain ⟨target, htarget, h⟩ := Lib.bind_ok h
  obtain ⟨headers, hheaders, h⟩ := Lib.bind_ok h
  obtain ⟨hchecked, hextends⟩ := createHeaders_extends hheaders
  cases h
  exact ⟨rfl, htarget, rfl, rfl, hchecked, hextends⟩

theorem uploadPart_built {request : StreamPartRequest}
    (h : client.uploadPart env request = .ok call) :
    Built client env (.uploadPart request) call := by
  obtain ⟨target, htarget, h⟩ := Lib.bind_ok h
  obtain ⟨headers, hheaders, h⟩ := Lib.bind_ok h
  obtain ⟨hchecked, hextends⟩ := checksumHeaders_extends hheaders
  obtain ⟨body, hbody, h⟩ := Lib.bind_ok h
  cases h
  exact ⟨rfl, htarget, rfl, rfl, hchecked, hextends⟩

theorem uploadPartCopy_built {request : UploadPartCopyRequest}
    (h : client.uploadPartCopy env request = .ok call) :
    Built client env (.uploadPartCopy request) call := by
  obtain ⟨hchecked, h⟩ := caller_ok h
  obtain ⟨headers₁, h₁, h⟩ := Lib.bind_ok h
  obtain ⟨headers₂, h₂, h⟩ := Lib.bind_ok h
  obtain ⟨headers₃, h₃, h⟩ := Lib.bind_ok h
  obtain ⟨target, htarget, h⟩ := Lib.bind_ok h
  cases h
  exact ⟨rfl, htarget, rfl, rfl, hchecked,
    (insertHeader_extends (.fromStatic _ (by decide)) h₁).trans
    ((insertOptionalHeader_extends (.fromStatic _ (by decide)) h₂).trans
      (insertConditions_extends (Or.inr rfl) h₃))⟩

theorem completeMultipartUpload_built {request : CompleteMultipartUploadRequest}
    (h : client.completeMultipartUpload env request = .ok call) :
    Built client env (.completeMultipartUpload request) call := by
  obtain ⟨target, htarget, h⟩ := Lib.bind_ok h
  obtain ⟨document, hdocument, h⟩ := Lib.bind_ok h
  obtain ⟨body, hbody, h⟩ := Lib.bind_ok h
  obtain ⟨hchecked, h⟩ := caller_ok h
  obtain ⟨headers₁, h₁, h⟩ := Lib.bind_ok h
  cases h
  exact ⟨rfl, htarget, rfl, rfl, hchecked,
    insertHeader_extends (.fromStatic _ (by decide)) h₁⟩

theorem abortMultipartUpload_built {request : AbortMultipartUploadRequest}
    (h : client.abortMultipartUpload env request = .ok call) :
    Built client env (.abortMultipartUpload request) call := by
  obtain ⟨target, htarget, h⟩ := Lib.bind_ok h
  obtain ⟨hchecked, h⟩ := caller_ok h
  cases h
  exact ⟨rfl, htarget, rfl, rfl, hchecked, .refl _⟩

theorem listParts_built {request : ListPartsRequest}
    (h : client.listParts env request = .ok call) :
    Built client env (.listParts request) call := by
  obtain ⟨target, htarget, h⟩ := Lib.bind_ok h
  obtain ⟨hchecked, h⟩ := caller_ok h
  cases h
  exact ⟨rfl, htarget, rfl, rfl, hchecked, .refl _⟩

theorem listMultipartUploads_built {request : ListMultipartUploadsRequest}
    (h : client.listMultipartUploads env request = .ok call) :
    Built client env (.listMultipartUploads request) call := by
  obtain ⟨target, htarget, h⟩ := Lib.bind_ok h
  obtain ⟨query, hquery, h⟩ := Lib.bind_ok h
  obtain ⟨hchecked, h⟩ := caller_ok h
  cases h
  exact ⟨rfl, htarget, hquery, rfl, hchecked, .refl _⟩

end Multipart

end S3Client

/-! ## Every operation -/

section Sent

variable {client : S3Client} {env : OperationEnv} {call : SignedSend}
  {s s' : SendState} {label : SendLabel}

/-- Every request that was sent carries the headers of the call. -/
def SendState.Carries (call : SignedSend) (s : SendState) : Prop :=
  ∀ t ∈ transmissions s.log, ∀ name ∉ protectedHeaders,
    t.request.headers.getAll name = call.headers.getAll name

theorem SendState.carries_step (h : step client call s label = some s')
    (hs : s.Carries call) :
    s'.Carries call := by
  rcases turn_sends (step_turn h) with hquiet |
    ⟨now, answer, body, hsent, hsigned⟩
  · rw [Carries, hquiet]
    exact hs
  · rw [Carries, hsent, List.forall_mem_cons]
    refine ⟨?_, hs⟩
    intro name hname
    exact signedHeaders_getAll hname
      (signedRequest_ok (congrArg Prod.fst hsigned)).1

theorem SendState.carries_of_reaches {started : Instant}
    {labels : List SendLabel} (h : Reaches client call started labels s) :
    s.Carries call := by
  refine Lib.exec_invariant carries_step h ?_
  rw [initial]
  split <;> exact nofun

namespace PrimitiveOperation

variable {operation : PrimitiveOperation}

theorem prepare_built (h : operation.prepare client env = .ok call) :
    Built client env operation call := by
  cases operation with
  | putObject request => exact S3Client.putObject_built h
  | getObject request => exact S3Client.getObject_built h
  | headObject request => exact S3Client.headObject_built h
  | deleteObject request => exact S3Client.deleteObject_built h
  | deleteObjects request => exact S3Client.deleteObjects_built h
  | copyObject request => exact S3Client.copyObject_built h
  | listObjectsV2 request => exact S3Client.listObjectsV2_built h
  | createMultipartUpload request =>
      exact S3Client.createMultipartUpload_built h
  | uploadPart request => exact S3Client.uploadPart_built h
  | uploadPartCopy request => exact S3Client.uploadPartCopy_built h
  | completeMultipartUpload request =>
      exact S3Client.completeMultipartUpload_built h
  | abortMultipartUpload request => exact S3Client.abortMultipartUpload_built h
  | listParts request => exact S3Client.listParts_built h
  | listMultipartUploads request => exact S3Client.listMultipartUploads_built h

theorem unprotected_of_built (h : Built client env operation call) {name : Str}
    (hname : call.headers.containsKey name = true) :
    name ∉ protectedHeaders := by
  intro hprotected
  obtain ⟨-, hcaller⟩ := requestHeaders_ok h.checked
  have hunion := h.extended.disjointUnion
  rcases hunion.only name hname with hown | hgenerated
  · rw [hcaller name hprotected] at hown
    cases hown
  · obtain ⟨header, hheader, rfl⟩ := List.mem_map.mp hgenerated
    exact hunion.unreserved header hheader hprotected

/-- **An operation fails before it sends, or every request it sends carries the
disjoint union of the caller's headers and the generated ones.** -/
theorem headers_disjoint (client : S3Client) (env : OperationEnv)
    (operation : PrimitiveOperation) :
    (∃ e, operation.prepare client env = .error e ∧
      ∀ sent, operation.Sends client env sent → sent = []) ∨
      ∃ call, operation.prepare client env = .ok call ∧
        DisjointUnion operation.headers
          (operation.generated env call.body) call.headers ∧
        (∀ name ∈ protectedHeaders, operation.headers.containsKey name =
          false) ∧
        ∀ sent, operation.Sends client env sent → ∀ t ∈ sent, ∀ name,
          call.headers.containsKey name = true →
          t.request.headers.getAll name = call.headers.getAll name := by
  cases hprepare : operation.prepare client env with
  | error e =>
      refine Or.inl ⟨e, rfl, ?_⟩
      intro sent hsent
      cases hsent with
      | refused => rfl
      | sending hcall => cases hprepare.symm.trans hcall
  | ok call =>
      have hbuilt := prepare_built hprepare
      refine Or.inr
        ⟨call, rfl, hbuilt.extended.disjointUnion,
          (requestHeaders_ok hbuilt.checked).2, ?_⟩
      intro sent hsent t ht name hname
      cases hsent with
      | refused hrefused => cases hprepare.symm.trans hrefused
      | sending hcall hreach =>
          cases hprepare.symm.trans hcall
          exact SendState.carries_of_reaches hreach t ht name
            (unprotected_of_built hbuilt hname)

end PrimitiveOperation

end Sent

end S3Wire
