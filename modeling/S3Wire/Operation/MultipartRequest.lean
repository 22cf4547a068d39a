/-
# `S3Wire.Operation.MultipartRequest` — typed requests and results of the multipart operations

The requests of `src/operation/multipart/part.rs` and
`src/operation/multipart/listing.rs`, with what a listing returns, and the
identifiers of `src/operation/multipart/identifier.rs` as a service issues them.
A listed part becomes a completed part by the constructor of the latter
(`ListedPart.completedPart`), so it can be refused only for what that
constructor checks: a blank ETag.
-/
import S3Wire.Operation.Object

namespace S3Wire

/-! ## Upload identifiers -/

/-- Why a service-issued multipart upload identifier was rejected. -/
inductive UploadIdError where
  | empty
  | tooLong (length maximum : Nat)
  | asciiControl (index : Nat)
  deriving DecidableEq

def UploadIdError.toString : UploadIdError → Str
  | .empty => "multipart upload ID cannot be empty"
  | .tooLong length maximum =>
      "multipart upload ID is ".toList ++ decimal length ++
        " bytes; the maximum is ".toList ++ decimal maximum
  | .asciiControl index =>
      "multipart upload ID contains an ASCII control at byte ".toList ++
        decimal index

/-- An identifier is not empty, not too long and without control characters. -/
def UploadId.new (value : Str) : Except UploadIdError UploadId :=
  if hempty : value = [] then .error .empty
  else if hbounded : value.len ≤ 2048 then
    if hcontrol : (value.all fun c => !(c.toNat < 32 || c.toNat == 127)) =
      true then
      .ok ⟨value, hempty, hbounded, hcontrol⟩
    else .error
      (.asciiControl ((Lib.utf8 value).findIdx fun b => b < 32 || b == 127))
  else .error (.tooLong value.len 2048)

/-- Result of initiating a multipart upload. -/
structure CreateMultipartUploadOutput where
  bucket : Option Str
  key : ObjectKey
  uploadId : UploadId
  checksumAlgorithm : Option Str
  checksumType : Option ChecksumType
  requestIds : RequestIds
  deriving DecidableEq

/-! ## One part -/

/-- `UploadPartRequest` with a body of any kind; the bodies of the managed
upload are in memory. -/
structure StreamPartRequest where
  key : ObjectKey
  uploadId : UploadId
  partNumber : PartNumber
  body : UploadSource
  checksum : Checksum
  headers : HeaderMap

/-- Inclusive source byte range for one server-side copied part. -/
structure CopyPartRange where
  start : UInt64
  stop : UInt64
  ordered : start ≤ stop

/-- A range whose end is not before its start. -/
def CopyPartRange.new (start stop : UInt64) : Except RangeError CopyPartRange :=
  if h : stop < start then .error ⟨start, stop⟩
  else .ok ⟨start, stop, ordered_of_not_lt h⟩

def CopyPartRange.headerValue (range : CopyPartRange) : Str :=
  "bytes=".toList ++ decimal range.start.toNat ++ "-".toList ++
    decimal range.stop.toNat

/-- Request to populate a multipart part from an existing S3 object. -/
structure UploadPartCopyRequest where
  destination : ObjectKey
  uploadId : UploadId
  partNumber : PartNumber
  source : CopySource
  sourceRange : Option CopyPartRange
  sourceConditions : Conditions
  headers : HeaderMap

/-- Result of populating a multipart part with a server-side copy. -/
structure UploadPartCopyOutput where
  partNumber : PartNumber
  eTag : Str
  lastModified : Option Int
  checksum : Checksum
  requestIds : RequestIds
  deriving DecidableEq

/-! ## Listings of uploads -/

/-- Request for one page of in-progress multipart uploads. -/
structure ListMultipartUploadsRequest where
  keyPrefix : Option Str
  delimiter : Option Str
  keyMarker : Option Str
  uploadIdMarker : Option UploadId
  maxUploads : PageSize
  headers : HeaderMap

/-- One in-progress multipart upload returned by the service. -/
structure MultipartUploadEntry where
  key : ObjectKey
  uploadId : UploadId
  initiated : Option Int
  storageClass : Option Str
  deriving DecidableEq

/-- One page of in-progress multipart uploads. -/
structure ListMultipartUploadsOutput where
  uploads : List MultipartUploadEntry
  commonPrefixes : List Str
  isTruncated : Bool
  nextKeyMarker : Option Str
  nextUploadIdMarker : Option UploadId
  requestIds : RequestIds
  deriving DecidableEq

/-! ## Listings of parts -/

/-- Request for one page of parts belonging to an in-progress upload. -/
structure ListPartsRequest where
  key : ObjectKey
  uploadId : UploadId
  partNumberMarker : Option PartNumber
  maxParts : PageSize
  headers : HeaderMap

def ListPartsRequest.new (key : ObjectKey) (uploadId : UploadId) :
    ListPartsRequest :=
  ⟨key, uploadId, none, PageSize.default, HeaderMap.new⟩

/-- One uploaded part returned by `ListParts`. -/
structure ListedPart where
  partNumber : PartNumber
  eTag : Str
  lastModified : Option Int
  size : UInt64
  checksum : Checksum
  deriving DecidableEq

/-- The key that listings are in the order of. -/
def ListedPart.number (part : ListedPart) : Nat := part.partNumber.get

/-- One bounded page returned by `ListParts`. -/
structure ListPartsOutput where
  parts : List ListedPart
  isTruncated : Bool
  nextPartNumberMarker : Option PartNumber
  checksumAlgorithm : Option Str
  checksumType : Option ChecksumType
  requestIds : RequestIds
  deriving DecidableEq

/-- Converts this service entry into a completion descriptor. -/
def ListedPart.completedPart (part : ListedPart) :
    Except MultipartError CompletedPart :=
  match CompletedPart.new part.partNumber.get part.eTag with
  | .error e => .error e
  | .ok completed => .ok (completed.withChecksum part.checksum)

theorem ListedPart.completedPart_of_tagged {part : ListedPart}
    (h : part.eTag.isBlank = false) :
    part.completedPart =
      .ok ⟨part.partNumber, part.eTag, part.checksum, h⟩ := by
  rw [completedPart, CompletedPart.new_of_valid part.partNumber h]
  rfl

end S3Wire
