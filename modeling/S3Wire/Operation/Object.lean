/-
# `S3Wire.Operation.Object` — typed requests and results of the object operations

`src/operation/object.rs`, with the value types of `src/operation/types.rs` that
they use.  Every value that its constructor validates carries what was
validated: an inclusive range does not end before it starts, a batch of
deletions has between one and 1,000 entries, a page size lies between 1 and
1,000.

A time is counted in nanoseconds since the epoch, and a map is the list of its
entries in the order of its iterator.
-/
import S3Wire.Stream.Download
import S3Wire.Operation.Multipart

namespace S3Wire

/-! ## Values -/

/-- Why a text is no key. -/
inductive ObjectKeyError where
  | empty
  | tooLong (actual maximum : Nat)
  deriving DecidableEq

def ObjectKeyError.toString : ObjectKeyError → Str
  | .empty => "an S3 object key cannot be empty"
  | .tooLong actual maximum =>
      "S3 object key is ".toList ++ decimal actual ++
        " bytes; the maximum is ".toList ++ decimal maximum

/-- A key is not empty and not longer than the maximum. -/
def ObjectKey.new (value : Str) : Except ObjectKeyError ObjectKey :=
  if hempty : value = [] then .error .empty
  else if hlong : value.len ≤ maxObjectKeyBytes then .ok ⟨value, hempty, hlong⟩
  else .error (.tooLong value.len maxObjectKeyBytes)

/-- A byte range for a GET request. -/
inductive ByteRange where
  | inclusive (start stop : UInt64) (ordered : start ≤ stop)
  | fromStart (start : UInt64)
  | suffix (length : UInt64) (nonzero : length ≠ 0)
  deriving DecidableEq

/-- The end of the range comes before its start. -/
structure RangeError where
  start : UInt64
  stop : UInt64
  deriving DecidableEq

theorem ordered_of_not_lt {start stop : UInt64} (h : ¬ stop < start) :
    start ≤ stop := UInt64.not_lt.mp h

/-- `ByteRange::inclusive`: where the order of the bounds comes from. -/
def ByteRange.newInclusive (start stop : UInt64) :
    Except RangeError ByteRange :=
  if h : stop < start then .error ⟨start, stop⟩
  else .ok (.inclusive start stop (ordered_of_not_lt h))

/-- The value of the `range` header. -/
def ByteRange.toHeaderValue : ByteRange → Str
  | .inclusive start stop _ =>
      "bytes=".toList ++ decimal start.toNat ++ "-".toList ++ decimal stop.toNat
  | .fromStart start => "bytes=".toList ++ decimal start.toNat ++ "-".toList
  | .suffix length _ => "bytes=-".toList ++ decimal length.toNat

/-- Conditional headers shared by object operations. -/
structure Conditions where
  ifMatch : Option Str := none
  ifNoneMatch : Option Str := none
  ifModifiedSince : Option Int := none
  ifUnmodifiedSince : Option Int := none
  deriving DecidableEq

/-- Metadata common to object retrieval and inspection responses. -/
structure ObjectMetadata where
  eTag : Option Str
  contentLength : UInt64
  contentType : Option Str
  lastModified : Option Int
  versionId : Option Str
  userMetadata : List (Str × Str)
  checksum : Checksum
  requestIds : RequestIds
  deriving DecidableEq

/-! ## One object -/

/-- What `put_object` is asked. -/
structure PutObjectRequest where
  key : ObjectKey
  body : UploadSource
  contentType : Option Str
  userMetadata : List (Str × Str)
  conditions : Conditions
  checksumAlgorithm : Option ChecksumAlgorithm
  headers : HeaderMap

/-- Result of uploading one object. -/
structure PutObjectOutput where
  eTag : Option Str
  versionId : Option Str
  checksum : Checksum
  requestIds : RequestIds
  deriving DecidableEq

/-- What `get_object` is asked. -/
structure GetObjectRequest where
  key : ObjectKey
  range : Option ByteRange
  conditions : Conditions
  versionId : Option Str
  headers : HeaderMap

/-- A streaming object download and its response metadata. -/
structure GetObjectOutput where
  metadata : ObjectMetadata
  body : ResponseStream
  contentRange : Option (UInt64 × UInt64 × Option UInt64)

/-- What `head_object` is asked. -/
structure HeadObjectRequest where
  key : ObjectKey
  conditions : Conditions
  versionId : Option Str
  headers : HeaderMap

/-- What `delete_object` is asked. -/
structure DeleteObjectRequest where
  key : ObjectKey
  versionId : Option Str
  ifMatch : Option Str
  headers : HeaderMap

/-- Result of deleting one object. -/
structure DeleteObjectOutput where
  deleteMarker : Bool
  versionId : Option Str
  requestIds : RequestIds
  deriving DecidableEq

/-! ## Many objects -/

/-- One object selected for a multi-object delete request. -/
structure DeleteObjectIdentifier where
  key : ObjectKey
  versionId : Option Str
  ifMatch : Option Str
  deriving DecidableEq

def DeleteObjectIdentifier.new (key : ObjectKey) : DeleteObjectIdentifier :=
  ⟨key, none, none⟩

def maxDeleteObjects : Nat := 1000

/-- Why a list of objects is no batch. -/
inductive DeleteObjectsError where
  | empty
  | tooMany (actual maximum : Nat)
  deriving DecidableEq

def DeleteObjectsError.toString : DeleteObjectsError → Str
  | .empty => "a multi-object delete request cannot be empty"
  | .tooMany actual maximum =>
      "multi-object delete has ".toList ++ decimal actual ++
        " entries; the maximum is ".toList ++
        decimal maximum

/-- A batch of one to a thousand objects to delete. -/
structure DeleteObjectsRequest where
  objects : List DeleteObjectIdentifier
  quiet : Bool
  headers : HeaderMap
  nonempty : objects ≠ []
  bounded : objects.length ≤ maxDeleteObjects

/-- A batch that is neither empty nor too long. -/
def DeleteObjectsRequest.new (objects : List DeleteObjectIdentifier) :
    Except DeleteObjectsError DeleteObjectsRequest :=
  if hempty : objects = [] then .error .empty
  else if hmany : objects.length ≤ maxDeleteObjects then
    .ok ⟨objects, false, HeaderMap.new, hempty, hmany⟩
  else .error (.tooMany objects.length maxDeleteObjects)

/-- One successfully deleted object. -/
structure DeletedObject where
  key : ObjectKey
  versionId : Option Str
  deleteMarker : Bool
  deleteMarkerVersionId : Option Str
  deriving DecidableEq

/-- Per-object failure returned from a multi-object delete.  The key may be no
valid one. -/
structure DeleteError where
  key : Str
  versionId : Option Str
  code : Option Str
  message : Option Str
  deriving DecidableEq

/-- Result of a multi-object delete request. -/
structure DeleteObjectsOutput where
  deleted : List DeletedObject
  errors : List DeleteError
  requestIds : RequestIds
  deriving DecidableEq

/-! ## Copies -/

/-- Source of a server-side object copy. -/
structure CopySource where
  bucket : Str
  key : ObjectKey
  versionId : Option Str
  deriving DecidableEq

/-- Metadata behavior for a server-side copy. -/
inductive CopyMetadataDirective where
  | copy
  | replace (contentType : Option Str) (userMetadata : List (Str × Str))
  deriving DecidableEq

/-- What `copy_object` is asked. -/
structure CopyObjectRequest where
  source : CopySource
  destination : ObjectKey
  sourceConditions : Conditions
  metadata : CopyMetadataDirective
  headers : HeaderMap

/-- Result of a server-side copy. -/
structure CopyObjectOutput where
  eTag : Option Str
  lastModified : Option Int
  versionId : Option Str
  checksum : Checksum
  requestIds : RequestIds
  deriving DecidableEq

/-! ## Listings -/

/-- Validated S3 listing page size in the range 1 through 1,000. -/
structure PageSize where
  get : Nat
  pos : 0 < get
  le_max : get ≤ 1000

def PageSize.max : Nat := 1000

/-- A size between 1 and the maximum. -/
def PageSize.new (value : Nat) : Option PageSize :=
  if h : 0 < value ∧ value ≤ PageSize.max then some ⟨value, h.1, h.2⟩ else none

def PageSize.default : PageSize := ⟨PageSize.max, by decide, by decide⟩

/-- Request for one `ListObjectsV2` page. -/
structure ListObjectsV2Request where
  keyPrefix : Option Str
  delimiter : Option Str
  continuationToken : Option Str
  startAfter : Option ObjectKey
  maxKeys : PageSize
  fetchOwner : Bool
  headers : HeaderMap

/-- The owner of an object in a listing. -/
structure ObjectOwner where
  id : Option Str
  displayName : Option Str
  deriving DecidableEq

/-- One object returned by `ListObjectsV2`. -/
structure ListedObject where
  key : ObjectKey
  lastModified : Option Int
  eTag : Option Str
  size : UInt64
  storageClass : Option Str
  owner : Option ObjectOwner
  checksumAlgorithms : List Str
  checksumType : Option ChecksumType
  deriving DecidableEq

/-- One parsed `ListObjectsV2` page. -/
structure ListObjectsV2Output where
  objects : List ListedObject
  commonPrefixes : List Str
  isTruncated : Bool
  nextContinuationToken : Option Str
  keyCount : Option UInt32
  requestIds : RequestIds
  deriving DecidableEq

end S3Wire
