/-
# `S3Wire.Client.MultipartUpload.Part` — one part, from its number to its descriptor

`upload_one_part` of `src/client/multipart_upload.rs` and the two ends of
`upload_part_with_deadline` in `src/client/multipart/operations.rs`.  What
stands between the two ends is the network: the request that `preparePart`
builds goes out, and the headers of a drained success response come back to
`completePart`. The part number of the descriptor is the one of the request,
whatever the response says.
-/
import S3Wire.Client.Headers
import S3Wire.Client.MultipartUpload.Source

namespace S3Wire

/-- What every part of one upload shares; the deadline is the environment's. -/
structure PartUploadContext where
  key : ObjectKey
  uploadId : UploadId
  source : PreparedMultipartSource
  partSize : Nat
  checksumAlgorithm : Option ChecksumAlgorithm
  headers : HeaderMap

/-- The request for a part, as `upload_one_part` makes it: the bytes are read
already. -/
structure UploadPartRequest where
  key : ObjectKey
  uploadId : UploadId
  partNumber : PartNumber
  body : Bytes
  checksum : Checksum
  headers : HeaderMap

/-- What the response to a part says. -/
structure UploadPartOutput where
  partNumber : PartNumber
  eTag : Str
  checksum : Checksum

/-- The checksum sent with a part: none without an algorithm. -/
def partChecksum (sha : Sha256) (algorithm : Option ChecksumAlgorithm)
    (body : Bytes) :
    Except S3Error Checksum :=
  match algorithm with
  | none => .ok {}
  | some algorithm =>
      match Checksum.calculateCooperatively sha algorithm body with
      | .ok checksum => .ok checksum
      | .error e => .error (S3Error.unsupported e.toString)

/-- `upload_one_part` up to the request. -/
def preparePart (sha : Sha256) (context : PartUploadContext)
    (partNumber : Nat) :
    Except ReadFault UploadPartRequest :=
  match context.source.readPart context.partSize partNumber with
  | .error fault => .error fault
  | .ok body =>
      match PartNumber.new partNumber with
      | none =>
          .error (.error
            (S3Error.integrity "generated multipart part number is invalid"))
      | some number =>
          match partChecksum sha context.checksumAlgorithm body with
          | .error e => .error (.error e)
          | .ok checksum =>
              .ok ⟨context.key, context.uploadId, number, body, checksum,
                context.headers⟩

/-- The end of `upload_part_with_deadline`, after the response was drained. -/
def uploadPartOutput (partNumber : PartNumber) (headers : HeaderMap) :
    Except S3Error UploadPartOutput :=
  match requiredHeader headers "etag" "upload-part response has no usable ETag"
      with
  | .error e => .error e
  | .ok eTag =>
      match responseChecksums headers with
      | .error e => .error e
      | .ok checksum => .ok ⟨partNumber, eTag, checksum⟩

/-- The end of `upload_one_part`. -/
def completePart (partNumber : PartNumber) (headers : HeaderMap) :
    Except S3Error CompletedPart :=
  match uploadPartOutput partNumber headers with
  | .error e => .error e
  | .ok output =>
      match CompletedPart.new output.partNumber.get output.eTag with
      | .error e => .error (S3Error.invalidResponse e.toString)
      | .ok part => .ok (part.withChecksum output.checksum)

/-- How the future of a part resolves: with the headers of a drained success
response, or with an error of any of its steps. -/
inductive PartReply where
  | response (headers : HeaderMap)
  | failed (e : S3Error)

/-- The output of `upload_one_part`. -/
def partResult (partNumber : Nat) : PartReply → Except S3Error CompletedPart
  | .failed e => .error e
  | .response headers =>
      match PartNumber.new partNumber with
      | none =>
          .error (S3Error.integrity
            "generated multipart part number is invalid")
      | some number => completePart number headers

theorem preparePart_ok {sha : Sha256} {context : PartUploadContext} {i : Nat}
    {r : UploadPartRequest} (h : preparePart sha context i = .ok r) :
    r.partNumber.get = i ∧ context.source.readPart context.partSize i =
      .ok r.body ∧
      partChecksum sha context.checksumAlgorithm r.body = .ok r.checksum := by
  unfold preparePart at h
  cases hb : context.source.readPart context.partSize i with
  | error fault => simp [hb] at h
  | ok body =>
      simp only [hb] at h
      cases hn : PartNumber.new i with
      | none => simp [hn] at h
      | some number =>
          simp only [hn] at h
          cases hc : partChecksum sha context.checksumAlgorithm body with
          | error e => simp [hc] at h
          | ok checksum =>
              simp only [hc, Except.ok.injEq] at h
              subst h
              exact ⟨PartNumber.new_some hn, rfl, hc⟩

/-- A descriptor carries the number of its request and what the response
said. -/
theorem completePart_ok {number : PartNumber} {headers : HeaderMap}
    {p : CompletedPart} (h : completePart number headers = .ok p) :
    p.number = number.get ∧
      ∃ output, uploadPartOutput number headers = .ok output ∧
        p.eTag = output.eTag ∧ p.checksum = output.checksum := by
  unfold completePart at h
  cases ho : uploadPartOutput number headers with
  | error e => simp [ho] at h
  | ok output =>
      simp only [ho] at h
      have hnumber : output.partNumber = number := by
        unfold uploadPartOutput at ho
        split at ho
        · cases ho
        · split at ho
          · cases ho
          · cases ho
            rfl
      cases hp : CompletedPart.new output.partNumber.get output.eTag with
      | error e => simp [hp] at h
      | ok part =>
          simp only [hp, Except.ok.injEq] at h
          obtain ⟨hnum, htag⟩ := CompletedPart.new_ok hp
          subst h
          exact ⟨hnum.trans (congrArg PartNumber.get hnumber), output, rfl,
            htag, rfl⟩

theorem partResult_ok {i : Nat} {reply : PartReply} {p : CompletedPart}
    (h : partResult i reply = .ok p) :
    p.number = i ∧ ∃ headers number, reply = .response headers ∧
    number.get = i ∧
      completePart number headers = .ok p := by
  cases reply with
  | failed e => simp [partResult] at h
  | response headers =>
      simp only [partResult] at h
      cases hn : PartNumber.new i with
      | none => simp [hn] at h
      | some number =>
          simp only [hn] at h
          have hget : number.get = i := PartNumber.new_some hn
          exact ⟨(completePart_ok h).1.trans hget, headers, number, rfl, hget,
            h⟩

end S3Wire
