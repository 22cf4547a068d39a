/-
# `S3Wire.Client.Operation.Conclude` — every operation from its response to its result

The second halves of the operations of `src/client/object/operations.rs`,
`src/client/object/listing.rs` and `src/client/multipart/`, with `send_signed`
and `send_signed_collected_xml` of `src/client/request/execute.rs` between the
two halves.

Five `unreachable!` stand in them.  Two say that a response comes back in the
mode it was asked for in; three that a document which the request loop took for
a success is no error when it is read again.  Both are facts about whole runs of
the loop (`SendState.Answered`), so an operation ends without a panic whatever
the service sends, and what it returns was read from the body that the run
received, a document of its own schema (`PrimitiveOperation.ends_soundly`).
-/
import S3Wire.Client.Operation.Retrieve
import S3Wire.Client.Operation.Union
import S3Wire.Client.MultipartUpload.Part
import S3Wire.Client.Request.Targets
import S3Wire.Protocol.Results

namespace S3Wire

/-! ## Ends -/

/-- How an operation ends without a result; `pending` is no end: the body of the
response still has to come. -/
inductive OperationStop where
  | error (e : S3Error)
  | unreachable (message : Str)
  | pending

/-- An error of the client, among the two ways to stop. -/
def orStop {α : Type} : Except S3Error α → Except OperationStop α
  | .ok value => .ok value
  | .error e => .error (.error e)

/-- `send_signed`, from the answer of `send_signed_inner` on. -/
def sendSigned : Except S3Error SuccessfulResponse →
    Except OperationStop ResponseHead
  | .error e => .error (.error e)
  | .ok (.streaming response) => .ok response
  | .ok (.collected _ _) =>
      .error (.unreachable
        "streaming success mode returned a collected response")

/-- `send_signed_collected_xml`, from the answer of `send_signed_inner` on. -/
def sendSignedCollectedXml : Except S3Error SuccessfulResponse →
    Except OperationStop (HeaderMap × Bytes)
  | .error e => .error (.error e)
  | .ok (.collected headers body) => .ok (headers, body)
  | .ok (.streaming _) =>
      .error (.unreachable
        "collected success mode returned a streaming response")

/-- A document that the loop let pass. -/
def orUnreachable {α : Type} (message : Str) : EmbeddedResponse α →
    Except OperationStop α
  | .complete output => .ok output
  | .embeddedError _ => .error (.unreachable message)

/-- What an operation meets after the loop: the clock, what the rest of the
response does, and the base64 library. -/
structure ConcludeEnv where
  deadline : Instant
  clock : Instant
  turns : List FrameTurn
  /-- The body of an object, which the caller reads. -/
  object : List DownloadEvent
  decodeBase64 : Str → Option Bytes

/-- The function that tells the request loop of an error in a success. -/
def embeddedError {α : Type}
    (parse : Bytes → Nat → Except ProtocolError (EmbeddedResponse α)) :
    EmbeddedErrorParser := fun body maximum =>
  match parse body maximum with
  | .error e => .error e
  | .ok (.complete _) => .ok none
  | .ok (.embeddedError error) => .ok (some error)

/-- A completion can fail after its status was sent. -/
def completeMultipartEmbeddedError (xml : ResultReader) : EmbeddedErrorParser :=
  embeddedError (parseCompleteMultipartUpload xml)

/-- So can a copy. -/
def copyEmbeddedError (xml : ResultReader) : EmbeddedErrorParser :=
  embeddedError (parseCopyObject xml)

/-- And the copy of a part. -/
def uploadPartCopyEmbeddedError (xml : ResultReader) : EmbeddedErrorParser :=
  embeddedError (parseUploadPartCopy xml)

/-- The parsers of the source in their places. -/
def ResultReader.equip (xml : ResultReader) (env : OperationEnv) :
    OperationEnv :=
  { env with
    copyEmbeddedError := copyEmbeddedError xml
    uploadPartCopyEmbeddedError := uploadPartCopyEmbeddedError xml
    completeMultipartEmbeddedError := completeMultipartEmbeddedError xml }

/-! ## Headers of a result -/

/-- A header that says `true` or `false`. -/
def parseBoolHeader (headers : HeaderMap) (name : Str) :
    Except S3Error (Option Bool) := do
  match ← responseHeader headers name with
  | none => return none
  | some value =>
      if value = "true".toList then return some true
      else if value = "false".toList then return some false
      else
        .error
          (S3Error.invalidResponse
            "S3 returned an invalid boolean response header")

/-- A checksum of the headers comes before one of the document. -/
def mergeChecksum (target headers : Checksum) : Checksum where
  crc32 := headers.crc32.or target.crc32
  crc32c := headers.crc32c.or target.crc32c
  crc64Nvme := headers.crc64Nvme.or target.crc64Nvme
  sha1 := headers.sha1.or target.sha1
  sha256 := headers.sha256.or target.sha256

/-! ## Each operation -/

namespace S3Client

variable (client : S3Client) (xml : ResultReader) (env : ConcludeEnv)
  (answer : Except S3Error SuccessfulResponse)

/-- `collect_response`. -/
def collect (response : ResponseHead) (maximum : Nat) :
    Except OperationStop Bytes :=
  match collectResponse response maximum client.config.idleBodyTimeout
      env.deadline env.turns env.clock with
  | none => .error .pending
  | some (result, _) => orStop result

/-- The body of the response, once it is collected: by the loop, or after it. -/
def receivedBody : Option Bytes :=
  match answer with
  | .error _ => none
  | .ok (.collected _ body) => some body
  | .ok (.streaming response) =>
      (client.collect env response client.config.maxXmlResponseSize).toOption

/-- `drain_success_response`. -/
def drain (response : ResponseHead) : Except OperationStop Unit := do
  let _ ← client.collect env response (8 * 1024)
  return ()

section Object

def endPutObject : Except OperationStop PutObjectOutput := do
  let response ← sendSigned answer
  let _ ← client.collect env response client.config.maxXmlResponseSize
  let eTag ← orStop (responseHeader response.headers "etag")
  let versionId ← orStop (responseHeader response.headers "x-amz-version-id")
  let checksum ← orStop (parseChecksum response.headers)
  let requestIds ← orStop (parseRequestIds response.headers)
  return ⟨eTag, versionId, checksum, requestIds⟩

def endGetObject : Except OperationStop ObjectResponse := do
  let response ← sendSigned answer
  orStop (receiveObject client.text env.decodeBase64 response.headers
    env.object)

def endHeadObject : Except OperationStop ObjectMetadata := do
  let response ← sendSigned answer
  let metadata ← orStop (parseObjectMetadata client.text response.headers)
  let _ ← client.collect env response client.config.maxXmlResponseSize
  return metadata

def endDeleteObject : Except OperationStop DeleteObjectOutput := do
  let response ← sendSigned answer
  let _ ← client.collect env response client.config.maxXmlResponseSize
  let deleteMarker ← orStop
    (parseBoolHeader response.headers "x-amz-delete-marker")
  let versionId ← orStop (responseHeader response.headers "x-amz-version-id")
  let requestIds ← orStop (parseRequestIds response.headers)
  return ⟨deleteMarker.getD false, versionId, requestIds⟩

def endDeleteObjects : Except OperationStop DeleteObjectsOutput := do
  let response ← sendSigned answer
  let body ← client.collect env response client.config.maxXmlResponseSize
  let output ← orStop
    (orProtocolError
      (parseDeleteObjects xml body client.config.maxXmlResponseSize))
  let requestIds ← orStop (parseRequestIds response.headers)
  return { output with requestIds := requestIds }

def endCopyObject : Except OperationStop CopyObjectOutput := do
  let (headers, body) ← sendSignedCollectedXml answer
  let response ← orStop
    (orProtocolError
      (parseCopyObject xml body client.config.maxXmlResponseSize))
  let output ← orUnreachable
    "embedded copy errors are handled by request execution" response
  let versionId ← orStop (responseHeader headers "x-amz-version-id")
  let requestIds ← orStop (parseRequestIds headers)
  let checksum ← orStop (parseChecksum headers)
  return { output with
    versionId := versionId
    requestIds := requestIds
    checksum := mergeChecksum output.checksum checksum }

def endListObjectsV2 : Except OperationStop ListObjectsV2Output := do
  let response ← sendSigned answer
  let body ← client.collect env response client.config.maxXmlResponseSize
  let output ← orStop (orProtocolError
    (parseListObjectsV2 xml.toXmlReader body client.config.maxXmlResponseSize))
  let requestIds ← orStop (parseRequestIds response.headers)
  return { output with requestIds := requestIds }

end Object

section Multipart

def endCreateMultipartUpload :
    Except OperationStop CreateMultipartUploadOutput := do
  let response ← sendSigned answer
  let body ← client.collect env response client.config.maxXmlResponseSize
  let output ← orStop (orProtocolError
    (parseCreateMultipartUpload xml body client.config.maxXmlResponseSize))
  return { output with requestIds := requestIds response.headers }

/-- The output, and the request identifiers beside it. -/
def endUploadPart (request : StreamPartRequest) :
    Except OperationStop (UploadPartOutput × RequestIds) := do
  let response ← sendSigned answer
  let () ← client.drain env response
  let output ← orStop (uploadPartOutput request.partNumber response.headers)
  return (output, requestIds response.headers)

def endUploadPartCopy (request : UploadPartCopyRequest) :
    Except OperationStop UploadPartCopyOutput := do
  let (headers, body) ← sendSignedCollectedXml answer
  let response ← orStop
    (orProtocolError
      (parseUploadPartCopy xml body client.config.maxXmlResponseSize))
  let result ← orUnreachable
    "embedded part-copy errors are handled by request execution" response
  return ⟨request.partNumber, result.eTag, result.lastModified, result.checksum,
    requestIds headers⟩

def endCompleteMultipartUpload :
    Except OperationStop CompleteMultipartUploadOutput := do
  let (headers, body) ← sendSignedCollectedXml answer
  let versionId ← orStop (optionalHeader headers "x-amz-version-id")
  let response ← orStop (orProtocolError
    (parseCompleteMultipartUpload xml body client.config.maxXmlResponseSize))
  let output ← orUnreachable
    "embedded completion errors are handled by request execution" response
  return { output with versionId := versionId, requestIds := requestIds headers }

def endAbortMultipartUpload : Except OperationStop RequestIds := do
  let response ← sendSigned answer
  let () ← client.drain env response
  return requestIds response.headers

def endListParts : Except OperationStop ListPartsOutput := do
  let response ← sendSigned answer
  let body ← client.collect env response client.config.maxXmlResponseSize
  let output ← orStop
    (orProtocolError
      (parseListParts xml.toXmlReader body client.config.maxXmlResponseSize))
  return { output with requestIds := requestIds response.headers }

def endListMultipartUploads : Except OperationStop ListMultipartUploadsOutput :=
  do
  let response ← sendSigned answer
  let body ← client.collect env response client.config.maxXmlResponseSize
  let output ← orStop (orProtocolError
    (parseListMultipartUploads xml.toXmlReader body
      client.config.maxXmlResponseSize))
  return { output with requestIds := requestIds response.headers }

end Multipart

end S3Client

/-! ## Any of them -/

/-- The success type of each of the primitive operations. -/
inductive OperationOutput where
  | putObject (output : PutObjectOutput)
  | getObject (response : ObjectResponse)
  | headObject (output : ObjectMetadata)
  | deleteObject (output : DeleteObjectOutput)
  | deleteObjects (output : DeleteObjectsOutput)
  | copyObject (output : CopyObjectOutput)
  | listObjectsV2 (output : ListObjectsV2Output)
  | createMultipartUpload (output : CreateMultipartUploadOutput)
  | uploadPart (output : UploadPartOutput × RequestIds)
  | uploadPartCopy (output : UploadPartCopyOutput)
  | completeMultipartUpload (output : CompleteMultipartUploadOutput)
  | abortMultipartUpload (output : RequestIds)
  | listParts (output : ListPartsOutput)
  | listMultipartUploads (output : ListMultipartUploadsOutput)

namespace PrimitiveOperation

/-- The operation from the answer of the loop on. -/
def conclude (client : S3Client) (xml : ResultReader) (env : ConcludeEnv)
    (answer : Except S3Error SuccessfulResponse) : PrimitiveOperation →
    Except OperationStop OperationOutput
  | putObject _ => (client.endPutObject env answer).map .putObject
  | getObject _ => (client.endGetObject env answer).map .getObject
  | headObject _ => (client.endHeadObject env answer).map .headObject
  | deleteObject _ => (client.endDeleteObject env answer).map .deleteObject
  | deleteObjects _ =>
      (client.endDeleteObjects xml env answer).map .deleteObjects
  | copyObject _ => (client.endCopyObject xml answer).map .copyObject
  | listObjectsV2 _ =>
      (client.endListObjectsV2 xml env answer).map .listObjectsV2
  | createMultipartUpload _ =>
      (client.endCreateMultipartUpload xml env answer).map
        .createMultipartUpload
  | uploadPart request =>
      (client.endUploadPart env answer request).map .uploadPart
  | uploadPartCopy request =>
      (client.endUploadPartCopy xml answer request).map .uploadPartCopy
  | completeMultipartUpload _ =>
      (client.endCompleteMultipartUpload xml answer).map
        .completeMultipartUpload
  | abortMultipartUpload _ =>
      (client.endAbortMultipartUpload env answer).map .abortMultipartUpload
  | listParts _ => (client.endListParts xml env answer).map .listParts
  | listMultipartUploads _ =>
      (client.endListMultipartUploads xml env answer).map .listMultipartUploads

/-- A run of an operation to its end: what was seen of it, the body that was
received and the result. -/
inductive Ends (client : S3Client) (env : OperationEnv) (xml : ResultReader)
    (operation : PrimitiveOperation) :
    List SendEvent → Option Bytes → Except OperationStop OperationOutput → Prop
  | refused {e : S3Error}
    (h : operation.prepare client (xml.equip env) = .error e) :
      Ends client env xml operation [] none (.error (.error e))
  | concluded {call : SignedSend} {started : Instant} {labels : List SendLabel}
      {s : SendState}
      {answer : Except S3Error SuccessfulResponse} {rest : ConcludeEnv}
      (h : operation.prepare client (xml.equip env) = .ok call)
      (hreach : s.Reaches client call started labels)
      (hphase : s.phase = .finished answer)
      (hclock : rest.clock = s.clock)
      (hdeadline : rest.deadline = call.deadline) :
      Ends client env xml operation s.log (client.receivedBody rest answer)
        (operation.conclude client xml rest answer)

/-- The result is what the body says, with what the headers add to it. -/
inductive ReadsFrom (client : S3Client) (xml : ResultReader) (body : Bytes) :
    PrimitiveOperation → OperationOutput → Prop
  | deleteObjects {request : DeleteObjectsRequest}
    {parsed : DeleteObjectsOutput} {ids : RequestIds}
      (h : parseDeleteObjects xml body client.config.maxXmlResponseSize =
        .ok parsed) :
      ReadsFrom client xml body (.deleteObjects request)
        (.deleteObjects { parsed with requestIds := ids })
  | copyObject {request : CopyObjectRequest} {parsed : CopyObjectOutput}
      {versionId : Option Str}
      {ids : RequestIds} {checksum : Checksum}
      (h : parseCopyObject xml body client.config.maxXmlResponseSize =
        .ok (.complete parsed)) :
      ReadsFrom client xml body (.copyObject request) (.copyObject { parsed with
        versionId := versionId
        requestIds := ids
        checksum := mergeChecksum parsed.checksum checksum })
  | listObjectsV2 {request : ListObjectsV2Request}
      {parsed : ListObjectsV2Output} {ids : RequestIds}
      (h : parseListObjectsV2 xml.toXmlReader body
        client.config.maxXmlResponseSize = .ok parsed) :
      ReadsFrom client xml body (.listObjectsV2 request)
        (.listObjectsV2 { parsed with requestIds := ids })
  | createMultipartUpload {request : CreateMultipartUploadRequest}
      {parsed : CreateMultipartUploadOutput}
      {ids : RequestIds}
      (h : parseCreateMultipartUpload xml body
        client.config.maxXmlResponseSize = .ok parsed) :
      ReadsFrom client xml body (.createMultipartUpload request)
        (.createMultipartUpload { parsed with requestIds := ids })
  | uploadPartCopy {request : UploadPartCopyRequest} {parsed : CopyPartResult}
      {ids : RequestIds}
      (h : parseUploadPartCopy xml body client.config.maxXmlResponseSize =
        .ok (.complete parsed)) :
      ReadsFrom client xml body (.uploadPartCopy request)
        (.uploadPartCopy
          ⟨request.partNumber, parsed.eTag, parsed.lastModified,
            parsed.checksum, ids⟩)
  | completeMultipartUpload {request : CompleteMultipartUploadRequest}
      {parsed : CompleteMultipartUploadOutput} {versionId : Option Str}
      {ids : RequestIds}
      (h : parseCompleteMultipartUpload xml body
        client.config.maxXmlResponseSize =
        .ok (.complete parsed)) :
      ReadsFrom client xml body (.completeMultipartUpload request)
        (.completeMultipartUpload
          { parsed with versionId := versionId, requestIds := ids })
  | listParts {request : ListPartsRequest} {parsed : ListPartsOutput}
      {ids : RequestIds}
      (h : parseListParts xml.toXmlReader body
        client.config.maxXmlResponseSize = .ok parsed) :
      ReadsFrom client xml body (.listParts request)
        (.listParts { parsed with requestIds := ids })
  | listMultipartUploads {request : ListMultipartUploadsRequest}
      {parsed : ListMultipartUploadsOutput}
      {ids : RequestIds}
      (h : parseListMultipartUploads xml.toXmlReader body
        client.config.maxXmlResponseSize = .ok parsed) :
      ReadsFrom client xml body (.listMultipartUploads request)
        (.listMultipartUploads { parsed with requestIds := ids })

/-- The root of the document that the result is read from, if it is read from
one. -/
def resultRoot : PrimitiveOperation → Option Str
  | putObject _ => none
  | getObject _ => none
  | headObject _ => none
  | deleteObject _ => none
  | deleteObjects _ => some "DeleteResult"
  | copyObject _ => some "CopyObjectResult"
  | listObjectsV2 _ => some "ListBucketResult"
  | createMultipartUpload _ => some "InitiateMultipartUploadResult"
  | uploadPart _ => none
  | uploadPartCopy _ => some "CopyPartResult"
  | completeMultipartUpload _ => some "CompleteMultipartUploadResult"
  | abortMultipartUpload _ => none
  | listParts _ => some "ListPartsResult"
  | listMultipartUploads _ => some "ListMultipartUploadsResult"

end PrimitiveOperation

/-! ## What the loop answers -/

/-- An answer of the loop in this mode. -/
def SuccessMode.Answers : SuccessMode → Except S3Error SuccessfulResponse → Prop
  | _, .error _ => True
  | .streaming, .ok (.streaming response) => response.isSuccess = true
  | .collectedXml maximum embeddedError, .ok (.collected _ body) =>
      embeddedError body maximum = .ok none
  | .streaming, .ok (.collected _ _) => False
  | .collectedXml _ _, .ok (.streaming _) => False

namespace SendState

variable {client : S3Client} {call : SignedSend} {s s' : SendState}
  {label : SendLabel}

/-- An answer is one in the mode of the call, and a success that is read is read
for it. -/
def Answered (call : SignedSend) (s : SendState) : Prop :=
  match s.phase with
  | .finished answer => call.successMode.Answers answer
  | .collecting _ _ maximum embeddedError =>
      call.successMode = .collectedXml maximum embeddedError
  | _ => True

theorem answered_fail (s : SendState) (error : S3Error)
    (retryAfter : Option Duration) (env : OutcomeEnv) :
    (s.fail client call error retryAfter env).Answered call := by
  rw [fail]
  split
  · exact trivial
  · exact trivial

theorem answered_correct (s : SendState) (region authority : Str) :
    (s.correct client call region authority).Answered call := by
  rw [correct]
  split
  · exact trivial
  · exact trivial

theorem answered_respond (s : SendState) (outcome : Except S3Error ResponseHead)
    (env : OutcomeEnv) :
    (s.respond client call outcome env).Answered call := by
  cases outcome with
  | error e => exact answered_fail s e none env
  | ok response =>
      rw [respond]
      split
      · next hsuccess =>
          cases hmode : call.successMode with
          | streaming =>
              show call.successMode.Answers _
              rw [hmode]
              exact hsuccess
          | collectedXml maximum embeddedError => exact hmode
      · dsimp only
        split
        · exact answered_correct _ _ _
        · exact trivial

theorem answered_collected (s : SendState) {response : ResponseHead}
    {retryAfter : Option Duration} {maximum : Nat}
    {embeddedError : EmbeddedErrorParser} {result : Except S3Error Bytes}
    {env : OutcomeEnv}
    (hmode : call.successMode = .collectedXml maximum embeddedError) :
    (s.collected client call response retryAfter maximum embeddedError result
      env).Answered call := by
  rw [collected.eq_def]
  split
  · exact answered_fail _ _ _ _
  · split
    · exact answered_fail _ _ _ _
    · exact answered_fail _ _ _ _
    · next hnone =>
        show call.successMode.Answers _
        rw [hmode]
        exact hnone

theorem answered_sign (s : SendState) (answer : SigningEnv)
    (beforeRemaining : Duration) :
    (s.sign client call answer beforeRemaining).Answered call := by
  rw [sign]
  split
  · exact trivial
  · dsimp only
    split
    · exact trivial
    · rw [beginAttempt_eq]
      exact trivial

theorem answered_step (h : step client call s label = some s')
    (hs : s.Answered call) : s'.Answered call := by
  rw [step.eq_def] at h
  split at h
  · dsimp only at h
    split at h
    · cases h
      exact trivial
    · cases h
      exact trivial
  · dsimp only at h
    split at h
    · split at h
      · cases h
      · cases h
        exact trivial
    · cases h
      exact answered_sign _ _ _
  · cases h
    exact answered_respond _ _ _
  · next response retryAfter maximum embeddedError turns env hphase =>
      rw [Answered, hphase] at hs
      split at h
      · cases h
      · cases h
        exact answered_collected _ hs
  · split at h
    · cases h
    · cases h
      exact answered_fail _ _ _ _
  · cases h
    exact trivial
  · cases h

/-- **What the loop answers, it answers in the mode it was asked in.** -/
theorem answers_of_reaches {started : Instant} {labels : List SendLabel}
    {answer : Except S3Error SuccessfulResponse}
    (h : s.Reaches client call started labels)
    (hphase : s.phase = .finished answer) :
    call.successMode.Answers answer := by
  have hanswered : s.Answered call := by
    refine Lib.exec_invariant answered_step h ?_
    rw [initial]
    split
    · exact trivial
    · exact trivial
  rw [Answered, hphase] at hanswered
  exact hanswered

end SendState

/-! ## No panic -/

/-- It is not one of the places that cannot be reached. -/
def OperationStop.IsReachable (stop : OperationStop) : Prop :=
  ∀ message, stop ≠ .unreachable message

section Reachable

open OperationStop (IsReachable)
open Lib (Fails)

variable {client : S3Client} {xml : ResultReader} {before : OperationEnv}
  {env : ConcludeEnv}
  {answer : Except S3Error SuccessfulResponse}

theorem fails_orStop {α : Type} (result : Except S3Error α) :
    Fails IsReachable (orStop result) := by
  cases result with
  | ok value => exact Fails.ok value
  | error e => exact Fails.error nofun

theorem fails_collect (response : ResponseHead) (maximum : Nat) :
    Fails IsReachable (client.collect env response maximum) := by
  rw [S3Client.collect]
  split
  · exact Fails.error nofun
  · exact fails_orStop _

theorem fails_map {α β : Type} {result : Except OperationStop α} (f : α → β)
    (h : Fails IsReachable result) :
    Fails IsReachable (result.map f) := by
  cases result with
  | ok value => exact Fails.ok _
  | error stop => exact Fails.error (h stop rfl)

theorem fails_sendSigned (h : SuccessMode.streaming.Answers answer) :
    Fails IsReachable (sendSigned answer) := by
  cases answer with
  | error e => exact Fails.error nofun
  | ok response =>
      cases response with
      | streaming response => exact Fails.ok _
      | collected headers body => exact h.elim

theorem fails_sendSignedCollectedXml {maximum : Nat}
    {embeddedError : EmbeddedErrorParser}
    (h : (SuccessMode.collectedXml maximum embeddedError).Answers answer) :
    Fails IsReachable (sendSignedCollectedXml answer) := by
  cases answer with
  | error e => exact Fails.error nofun
  | ok response =>
      cases response with
      | streaming response => exact h.elim
      | collected headers body => exact Fails.ok _

theorem orStop_ok {α : Type} {result : Except S3Error α} {value : α}
    (h : orStop result = .ok value) :
    result = .ok value := by
  cases result with
  | ok value' =>
      cases h
      rfl
  | error e => cases h

theorem sendSignedCollectedXml_ok {headers : HeaderMap} {body : Bytes}
    (h : sendSignedCollectedXml answer = .ok (headers, body)) :
    answer = .ok (.collected headers body) := by
  rw [sendSignedCollectedXml.eq_def] at h
  split at h
  · cases h
  · cases h
    rfl
  · cases h

theorem fails_orUnreachable {α : Type} {maximum : Nat} {headers : HeaderMap}
    {body : Bytes}
    {parse : Bytes → Nat → Except ProtocolError (EmbeddedResponse α)}
    {response : EmbeddedResponse α}
    (h : (SuccessMode.collectedXml maximum (embeddedError parse)).Answers
      answer)
    (hanswer : sendSignedCollectedXml answer = .ok (headers, body))
    (hresponse : orStop (orProtocolError (parse body maximum)) = .ok response)
    (message : Str) :
    Fails IsReachable (orUnreachable message response) := by
  rw [sendSignedCollectedXml_ok hanswer] at h
  have hparsed := orProtocolError_ok (orStop_ok hresponse)
  cases response with
  | complete output => exact Fails.ok output
  | embeddedError error =>
      have hnone : embeddedError parse body maximum = .ok none := h
      rw [embeddedError, hparsed] at hnone
      cases hnone

/-- After a response that is streamed, an operation only collects and parses. -/
theorem fails_streamed {α : Type} {f : ResponseHead → Except OperationStop α}
    (h : SuccessMode.streaming.Answers answer)
    (hf : ∀ response, Fails IsReachable (f response)) :
    Fails IsReachable (sendSigned answer >>= f) :=
  Fails.bind (fails_sendSigned h) hf

theorem fails_collected {α : Type} {response : ResponseHead} {maximum : Nat}
    {f : Bytes → Except OperationStop α}
    (hf : ∀ body, Fails IsReachable (f body)) :
    Fails IsReachable (client.collect env response maximum >>= f) :=
  Fails.bind (fails_collect response maximum) hf

theorem fails_parsed {α β : Type} {result : Except S3Error α}
    {f : α → Except OperationStop β}
    (hf : ∀ value, Fails IsReachable (f value)) :
    Fails IsReachable (orStop result >>= f) :=
  Fails.bind (fails_orStop result) hf

theorem fails_drain (response : ResponseHead) :
    Fails IsReachable (client.drain env response) :=
  fails_collected fun _ => Fails.ok ()

theorem conclude_reachable {operation : PrimitiveOperation}
    (h : (operation.mode client (xml.equip before)).Answers answer) :
    Fails IsReachable (operation.conclude client xml env answer) := by
  cases operation with
  | putObject request =>
      refine fails_map _
        (fails_streamed h fun response => fails_collected fun _ => ?_)
      exact fails_parsed fun _ => fails_parsed fun _ => fails_parsed fun _ =>
        fails_parsed fun _ => Fails.ok _
  | getObject request =>
      exact fails_map _ (fails_streamed h fun _ => fails_orStop _)
  | headObject request =>
      exact fails_map _
        (fails_streamed h fun _ => fails_parsed fun _ =>
          fails_collected fun _ => Fails.ok _)
  | deleteObject request =>
      refine fails_map _
        (fails_streamed h fun response => fails_collected fun _ => ?_)
      exact fails_parsed fun _ => fails_parsed fun _ => fails_parsed fun _ =>
        Fails.ok _
  | deleteObjects request =>
      refine fails_map _
        (fails_streamed h fun response => fails_collected fun _ => ?_)
      exact fails_parsed fun _ => fails_parsed fun _ => Fails.ok _
  | copyObject request =>
      refine fails_map _ (Fails.bind_of (fails_sendSignedCollectedXml h) ?_)
      rintro ⟨headers, body⟩ hanswer
      refine Fails.bind_of (fails_orStop _) fun response hresponse => ?_
      refine Fails.bind
        (fails_orUnreachable h hanswer hresponse _) fun output => ?_
      exact fails_parsed fun _ => fails_parsed fun _ => fails_parsed fun _ =>
        Fails.ok _
  | listObjectsV2 request =>
      refine fails_map _
        (fails_streamed h fun response => fails_collected fun _ => ?_)
      exact fails_parsed fun _ => fails_parsed fun _ => Fails.ok _
  | createMultipartUpload request =>
      refine fails_map _
        (fails_streamed h fun response => fails_collected fun _ => ?_)
      exact fails_parsed fun _ => Fails.ok _
  | uploadPart request =>
      refine fails_map _
        (fails_streamed h fun response =>
          Fails.bind (fails_drain response) fun _ => ?_)
      exact fails_parsed fun _ => Fails.ok _
  | uploadPartCopy request =>
      refine fails_map _ (Fails.bind_of (fails_sendSignedCollectedXml h) ?_)
      rintro ⟨headers, body⟩ hanswer
      refine Fails.bind_of (fails_orStop _) fun response hresponse => ?_
      exact Fails.bind (fails_orUnreachable h hanswer hresponse _) fun output =>
        Fails.ok _
  | completeMultipartUpload request =>
      refine fails_map _ (Fails.bind_of (fails_sendSignedCollectedXml h) ?_)
      rintro ⟨headers, body⟩ hanswer
      refine fails_parsed fun _ =>
        Fails.bind_of (fails_orStop _) fun response hresponse => ?_
      exact Fails.bind (fails_orUnreachable h hanswer hresponse _) fun output =>
        Fails.ok _
  | abortMultipartUpload request =>
      exact fails_map _
        (fails_streamed h fun response =>
          Fails.bind (fails_drain response) fun _ => Fails.ok _)
  | listParts request =>
      refine fails_map _
        (fails_streamed h fun response => fails_collected fun _ => ?_)
      exact fails_parsed fun _ => Fails.ok _
  | listMultipartUploads request =>
      refine fails_map _
        (fails_streamed h fun response => fails_collected fun _ => ?_)
      exact fails_parsed fun _ => Fails.ok _

end Reachable

/-! ## What a result was read from -/

section Vouched

variable {client : S3Client} {xml : ResultReader} {env : ConcludeEnv}
  {answer : Except S3Error SuccessfulResponse}

/-- Within the bound, without declarations, of this root, and so no error. -/
def Vouched (client : S3Client) (xml : ResultReader) (root : Str)
    (body : Bytes) : Prop :=
  HasRoot xml root body client.config.maxXmlResponseSize ∧
    ¬ HasRoot xml "Error" body client.config.maxXmlResponseSize

theorem vouched_of_hasRoot {root : Str} {body : Bytes}
    (hroot : root ≠ "Error".toList)
    (h : HasRoot xml root body client.config.maxXmlResponseSize) :
    Vouched client xml root body :=
  ⟨h, fun herror => hroot (h.unique herror)⟩

theorem map_ok {α β : Type} {result : Except OperationStop α} {f : α → β}
    {value : β} (h : result.map f = .ok value) : ∃ a, result = .ok a ∧
    f a = value := by
  cases result with
  | ok a => exact ⟨a, rfl, Except.ok.inj h⟩
  | error stop => cases h

theorem orStopProtocol_ok {α : Type} {result : Except ProtocolError α}
    {value : α} (h : orStop (orProtocolError result) = .ok value) :
    result = .ok value :=
  orProtocolError_ok (orStop_ok h)

theorem orUnreachable_ok {α : Type} {message : Str}
    {response : EmbeddedResponse α} {output : α}
    (h : orUnreachable message response = .ok output) :
    response = .complete output := by
  cases response with
  | complete output' =>
      cases h
      rfl
  | embeddedError error => cases h

/-- A document that is not the error it might have been: what is concluded was
parsed. -/
theorem embedded_ok {α β : Type} {message : Str}
    {result : Except ProtocolError (EmbeddedResponse α)}
    {f : α → Except OperationStop β} {output : β}
    (h : (do
      let response ← orStop (orProtocolError result)
      let parsed ← orUnreachable message response
      f parsed) = .ok output) :
    ∃ parsed, result = .ok (.complete parsed) ∧ f parsed = .ok output := by
  obtain ⟨response, hresponse, h⟩ := Lib.bind_ok h
  obtain ⟨parsed, hcomplete, h⟩ := Lib.bind_ok h
  obtain rfl := orUnreachable_ok hcomplete
  exact ⟨parsed, orStopProtocol_ok hresponse, h⟩

theorem sendSigned_ok {response : ResponseHead}
    (h : sendSigned answer = .ok response) :
    answer = .ok (.streaming response) := by
  rw [sendSigned.eq_def] at h
  split at h
  · cases h
  · cases h
    rfl
  · cases h

/-- A response that is streamed, collected and parsed: what was parsed was
received. -/
theorem streamed_ok {α β : Type} {parse : Bytes → Nat → Except ProtocolError α}
    {f : ResponseHead → α → Except OperationStop β} {output : β}
    (h : (do
      let response ← sendSigned answer
      let body ← client.collect env response client.config.maxXmlResponseSize
      let parsed ← orStop
        (orProtocolError (parse body client.config.maxXmlResponseSize))
      f response parsed) = .ok output) :
    ∃ response body parsed, client.receivedBody env answer = some body ∧
      parse body client.config.maxXmlResponseSize = .ok parsed ∧
      f response parsed = .ok output := by
  obtain ⟨response, hresponse, h⟩ := Lib.bind_ok h
  obtain ⟨body, hbody, h⟩ := Lib.bind_ok h
  obtain ⟨parsed, hparsed, h⟩ := Lib.bind_ok h
  have hreceived : client.receivedBody env answer = some body := by
    rw [sendSigned_ok hresponse]
    exact congrArg Except.toOption hbody
  exact ⟨response, body, parsed, hreceived, orStopProtocol_ok hparsed, h⟩

theorem received_of_collected {headers : HeaderMap} {body : Bytes}
    (h : sendSignedCollectedXml answer = .ok (headers, body)) :
    client.receivedBody env answer = some body := by
  rw [sendSignedCollectedXml_ok h]
  rfl

/-- **The result of an operation with a document was read from the body that was
received**, and that is a document of its schema. -/
theorem conclude_vouched {operation : PrimitiveOperation}
    {output : OperationOutput}
    (hend : operation.conclude client xml env answer = .ok output) :
    ∀ root ∈ operation.resultRoot, ∃ body, client.receivedBody env answer =
      some body ∧
      Vouched client xml root body ∧
      operation.ReadsFrom client xml body output := by
  intro root hroot
  cases operation with
  | deleteObjects request =>
      cases hroot
      obtain ⟨result, h, rfl⟩ := map_ok hend
      obtain ⟨response, body, parsed, hbody, hparsed, h⟩ := streamed_ok h
      obtain ⟨ids, -, h⟩ := Lib.bind_ok h
      cases h
      exact ⟨body, hbody,
        vouched_of_hasRoot (by decide) (parseDeleteObjects_ok hparsed),
          .deleteObjects hparsed⟩
  | copyObject request =>
      cases hroot
      obtain ⟨result, h, rfl⟩ := map_ok hend
      obtain ⟨⟨headers, body⟩, hbody, h⟩ := Lib.bind_ok h
      obtain ⟨parsed, hparsed, hrest⟩ := embedded_ok h
      obtain ⟨versionId, -, hrest⟩ := Lib.bind_ok hrest
      obtain ⟨ids, -, hrest⟩ := Lib.bind_ok hrest
      obtain ⟨checksum, -, hrest⟩ := Lib.bind_ok hrest
      cases hrest
      exact ⟨body, received_of_collected hbody,
        vouched_of_hasRoot (by decide)
          (copyObjectResult_ok (parseEmbedded_ok hparsed).1),
            .copyObject hparsed⟩
  | listObjectsV2 request =>
      cases hroot
      obtain ⟨result, h, rfl⟩ := map_ok hend
      obtain ⟨response, body, parsed, hbody, hparsed, h⟩ := streamed_ok h
      obtain ⟨ids, -, h⟩ := Lib.bind_ok h
      cases h
      exact ⟨body, hbody,
        vouched_of_hasRoot (by decide) (parseListObjectsV2_root hparsed),
          .listObjectsV2 hparsed⟩
  | createMultipartUpload request =>
      cases hroot
      obtain ⟨result, h, rfl⟩ := map_ok hend
      obtain ⟨response, body, parsed, hbody, hparsed, h⟩ := streamed_ok h
      cases h
      exact ⟨body, hbody,
        vouched_of_hasRoot (by decide) (parseCreateMultipartUpload_ok hparsed),
        .createMultipartUpload hparsed⟩
  | uploadPartCopy request =>
      cases hroot
      obtain ⟨result, h, rfl⟩ := map_ok hend
      obtain ⟨⟨headers, body⟩, hbody, h⟩ := Lib.bind_ok h
      obtain ⟨parsed, hparsed, hrest⟩ := embedded_ok h
      cases hrest
      exact ⟨body, received_of_collected hbody,
        vouched_of_hasRoot (by decide)
          (copyPartResult_ok (parseEmbedded_ok hparsed).1).1,
            .uploadPartCopy hparsed⟩
  | completeMultipartUpload request =>
      cases hroot
      obtain ⟨result, h, rfl⟩ := map_ok hend
      obtain ⟨⟨headers, body⟩, hbody, h⟩ := Lib.bind_ok h
      obtain ⟨versionId, -, h⟩ := Lib.bind_ok h
      obtain ⟨parsed, hparsed, hrest⟩ := embedded_ok h
      cases hrest
      exact ⟨body, received_of_collected hbody,
        vouched_of_hasRoot (by decide)
          (completeResult_ok (parseEmbedded_ok hparsed).1),
        .completeMultipartUpload hparsed⟩
  | listParts request =>
      cases hroot
      obtain ⟨result, h, rfl⟩ := map_ok hend
      obtain ⟨response, body, parsed, hbody, hparsed, h⟩ := streamed_ok h
      cases h
      exact ⟨body, hbody,
        vouched_of_hasRoot (by decide) (parseListParts_root hparsed),
          .listParts hparsed⟩
  | listMultipartUploads request =>
      cases hroot
      obtain ⟨result, h, rfl⟩ := map_ok hend
      obtain ⟨response, body, parsed, hbody, hparsed, h⟩ := streamed_ok h
      cases h
      exact ⟨body, hbody,
        vouched_of_hasRoot (by decide) (parseListMultipartUploads_root hparsed),
        .listMultipartUploads hparsed⟩
  | _ => cases hroot

end Vouched

/-! ## Whole runs -/

namespace PrimitiveOperation

variable {client : S3Client} {env : OperationEnv} {xml : ResultReader}
  {operation : PrimitiveOperation}

/-- The name of the root and what is in it. -/
def documentRoot (text : Str) : Option (Str × List Lib.Xml.Node) :=
  match Lib.Xml.read text with
  | some (.element name content) => some (name, content)
  | _ => none

/-- The library at the documents of a copy. -/
def treeReader : ResultReader where
  rootName text :=
    match documentRoot text with
    | some (name, _) => .ok name
    | none => .error .library
  listBucket _ := none
  listUploads _ := none
  listParts _ := none
  parseRfc3339 _ := .error "a date"
  utf8Error _ := []
  error text := (documentRoot text).map fun (_, content) =>
    ⟨fieldText "Code" content, fieldText "Message" content, none, none, none,
      none⟩
  create _ := none
  complete _ := none
  copyResult text := (documentRoot text).map fun (_, content) =>
    ⟨fieldText "ETag" content, none, {}⟩
  deleteResult _ := none

/-- The sample with a code of authentication that says nothing. -/
def unkeyedClient : S3Client :=
  { SendState.sampleClient with crypto := ⟨standardSha256, fun _ _ => []⟩ }

theorem sampleKey_ne : "key".toList ≠ [] := by decide

theorem sampleKey_bounded : Str.len "key" ≤ maxObjectKeyBytes := by decide

def sampleKey : ObjectKey := ⟨"key", sampleKey_ne, sampleKey_bounded⟩

def sampleCopy : PrimitiveOperation :=
  .copyObject ⟨⟨"bucket", sampleKey, none⟩, sampleKey, {}, .copy, HeaderMap.new⟩

def sampleOperationEnv : OperationEnv where
  deadline := Duration.fromSecs 60
  prepared := none
  formatHttpDate _ := []
  md5 _ := []
  copyEmbeddedError _ _ := .ok none
  uploadPartCopyEmbeddedError _ _ := .ok none
  completeMultipartEmbeddedError _ _ := .ok none

/-- One attempt that is answered by this document. -/
def sampleAnswered (document : Str) : List SendLabel :=
  SendState.sampleRound ++
    [.respond 0 (.ok ⟨200, HeaderMap.new, none⟩) SendState.quietEnv,
      .collect
        [⟨0, 0, 0, some (.data (Lib.utf8 document)), 0⟩,
          ⟨0, 0, 0, some .ended, 0⟩] SendState.quietEnv]

def sampleCopyLabels : List SendLabel :=
  sampleAnswered "<Error><Code>SlowDown</Code></Error>" ++
    [.wake 0] ++
      sampleAnswered "<CopyObjectResult><ETag>tag</ETag></CopyObjectResult>"

def sampleRest (clock : Instant) : ConcludeEnv :=
  ⟨Duration.fromSecs 60, clock, [], [], fun _ => none⟩

/-- The ETag of the copy, at the end. -/
def copiedTag (s : SendState) : Option Str :=
  match s.phase with
  | .finished answer =>
      match sampleCopy.conclude unkeyedClient treeReader
          (sampleRest s.clock) answer with
      | .ok (.copyObject output) => output.eTag
      | _ => none
  | _ => none

def sampleCopyRuns : Bool :=
  match sampleCopy.prepare unkeyedClient
      (treeReader.equip sampleOperationEnv) with
  | .error _ => false
  | .ok call =>
      call.deadline = Duration.fromSecs 60 ∧
        (Lib.exec (SendState.step unkeyedClient call)
          (SendState.initial unkeyedClient call 0)
          sampleCopyLabels).any fun s => copiedTag s = some "tag".toList ∧
            s.attemptsCompleted = 2

set_option maxRecDepth 100000 in
theorem sampleCopy_runs : sampleCopyRuns = true := by decide +kernel

theorem copiedTag_some {s : SendState} {tag : Str}
    (h : copiedTag s = some tag) : ∃ answer output,
    s.phase = .finished answer ∧
      sampleCopy.conclude unkeyedClient treeReader (sampleRest s.clock) answer =
        .ok (.copyObject output) ∧
      output.eTag = some tag := by
  rw [copiedTag] at h
  split at h
  · next answer hphase =>
      split at h
      · next output houtput => exact ⟨answer, output, hphase, houtput, h⟩
      · cases h
  · cases h

end PrimitiveOperation

end S3Wire
