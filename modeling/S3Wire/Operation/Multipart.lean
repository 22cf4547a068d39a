/-
# `S3Wire.Operation.Multipart` — multipart state and its validated values

`src/operation/multipart/` and the key type of `src/operation/types.rs`.

A `MultipartUpload` records completed parts in whatever order they arrive and
keeps them in ascending order by a binary search; a completion request accepts
exactly the non-empty strictly ascending lists.  The two meet: what the one
keeps, the other accepts.  Both the order and the validity of every part are
fields of the types, so that the only thing left to say about `recordPart` is
what it adds (`recordPart_ok`) and when it refuses (`recordPart_error`).

The two timeouts of `MultipartOptions` are left out: nothing here measures them,
and when they expire is a free choice of the environment in the model of the
managed upload.
-/
import S3Wire.Http
import S3Wire.Lib.BinarySearch
import S3Wire.Stream.Snapshot

namespace S3Wire

/-- The `Display` form of an unsigned integer. -/
def decimal (n : Nat) : Str := Nat.toDigits 10 n

/-- The Unicode `White_Space` characters, which `str::trim` removes. -/
def isWhitespace (c : Char) : Bool :=
  let n := c.toNat
  (9 ≤ n && n ≤ 13) || n == 0x20 || n == 0x85 || n == 0xA0 || n == 0x1680 ||
    (0x2000 ≤ n && n ≤ 0x200A) || n == 0x2028 || n == 0x2029 || n == 0x202F ||
      n == 0x205F ||
    n == 0x3000

/-- `s.trim().is_empty()`. -/
def Str.isBlank (s : Str) : Bool := s.all isWhitespace

/-! ## Identifiers -/

def maxObjectKeyBytes : Nat := 1024

/-- A validated UTF-8 S3 object key. -/
structure ObjectKey where
  text : Str
  nonempty : text ≠ []
  bounded : text.len ≤ maxObjectKeyBytes

theorem ObjectKey.text_injective : Function.Injective ObjectKey.text := by
  rintro ⟨text, _, _⟩ ⟨text, _, _⟩ h
  cases h
  rfl

instance : DecidableEq ObjectKey := ObjectKey.text_injective.decidableEq

/-- A validated multipart upload identifier issued by an S3 service. -/
structure UploadId where
  text : Str
  nonempty : text ≠ []
  bounded : text.len ≤ 2048
  noControl : text.all fun c => !(c.toNat < 32 || c.toNat == 127)

theorem UploadId.text_injective : Function.Injective UploadId.text := by
  rintro ⟨text, _, _, _⟩ ⟨text, _, _, _⟩ h
  cases h
  rfl

instance : DecidableEq UploadId := UploadId.text_injective.decidableEq

/-- A validated multipart part number in the range 1 through 10,000. -/
structure PartNumber where
  get : Nat
  pos : 0 < get
  le_max : get ≤ 10000
  deriving DecidableEq

def PartNumber.max : Nat := 10000

/-- A number between 1 and the maximum. -/
def PartNumber.new (value : Nat) : Option PartNumber :=
  if h : 0 < value ∧ value ≤ 10000 then some ⟨value, h.1, h.2⟩ else none

theorem PartNumber.ext_get {a b : PartNumber} (h : a.get = b.get) : a = b := by
  cases a
  cases b
  cases h
  rfl

theorem PartNumber.new_of_range {n : Nat} (hpos : 0 < n) (hle : n ≤ 10000) :
    PartNumber.new n = some ⟨n, hpos, hle⟩ := by
  simp [PartNumber.new, hpos, hle]

theorem PartNumber.new_some {n : Nat} {number : PartNumber}
    (h : PartNumber.new n = some number) :
    number.get = n := by
  unfold PartNumber.new at h
  split at h
  · cases h
    rfl
  · cases h

/-! ## Options -/

def minPartSize : Nat := 5 * 1024 * 1024
def maxPartSize : Nat := 5 * 1024 * 1024 * 1024
def maxConcurrency : Nat := 64

/-- Validated resource bounds for one managed multipart upload. -/
structure MultipartOptions where
  partSize : Nat
  concurrency : Nat
  partSize_ge : minPartSize ≤ partSize
  partSize_le : partSize ≤ maxPartSize
  concurrency_pos : 1 ≤ concurrency
  concurrency_le : concurrency ≤ maxConcurrency
  deriving DecidableEq

/-- `u64::checked_mul`. -/
def checkedMul64 (a b : Nat) : Option Nat :=
  if a * b < 2 ^ 64 then some (a * b) else none

/-- Options that were checked, with the message of each check. -/
def MultipartOptions.new (partSize concurrency : Nat) :
    Except S3Error MultipartOptions :=
  if hp : minPartSize ≤ partSize ∧ partSize ≤ maxPartSize then
    if hc : 1 ≤ concurrency ∧ concurrency ≤ maxConcurrency then
      match checkedMul64 partSize concurrency with
      | none =>
          .error (S3Error.configuration
            "multipart buffered byte bound overflow")
      | some _ => .ok ⟨partSize, concurrency, hp.1, hp.2, hc.1, hc.2⟩
    else .error
      (S3Error.configuration "multipart concurrency must be between 1 and 64")
  else .error
    (S3Error.configuration
      "multipart part size must be between 5 MiB and 5 GiB")

/-! ## The managed request -/

/-- Where a managed upload takes its bytes from. -/
inductive MultipartUploadSource where
  | bytes (buffer : Buffer)
  | file (path : Str)
  deriving DecidableEq

/-- Phase-specific headers for a managed multipart upload. -/
structure ManagedMultipartHeaders where
  create : HeaderMap
  uploadPart : HeaderMap
  complete : HeaderMap
  abort : HeaderMap

/-- Request for a bounded, automatically cleaned-up multipart upload.  The
algorithm is one that can be calculated locally. -/
structure ManagedMultipartUploadRequest where
  key : ObjectKey
  source : MultipartUploadSource
  contentType : Option Str
  userMetadata : List (Str × Str)
  options : MultipartOptions
  checksumAlgorithm : Option ChecksumAlgorithm
  headers : ManagedMultipartHeaders
  calculable : checksumAlgorithm ≠ some .sha1

/-- Where `calculable` comes from; without it there is no algorithm. -/
def ManagedMultipartUploadRequest.withChecksumAlgorithm
    (r : ManagedMultipartUploadRequest) (algorithm : ChecksumAlgorithm) :
    Except ChecksumCalculationError ManagedMultipartUploadRequest :=
  if h : algorithm = .sha1 then .error ⟨algorithm⟩
  else .ok { r with
    checksumAlgorithm := some algorithm
    calculable := fun he => h (Option.some.inj he) }

/-- How S3 derives an object checksum from multipart data. -/
inductive ChecksumType where
  | composite
  | fullObject
  | unknown (value : Str)
  deriving DecidableEq

/-- Request to initiate a multipart upload. -/
structure CreateMultipartUploadRequest where
  key : ObjectKey
  contentType : Option Str
  userMetadata : List (Str × Str)
  checksumAlgorithm : Option ChecksumAlgorithm
  checksumType : Option ChecksumType
  headers : HeaderMap

def CreateMultipartUploadRequest.new (key : ObjectKey) :
    CreateMultipartUploadRequest :=
  ⟨key, none, [], none, none, HeaderMap.new⟩

/-- Identifiers supplied by a service for diagnostics. -/
structure RequestIds where
  requestId : Option Str
  hostId : Option Str
  deriving DecidableEq

/-- Result of completing a multipart upload. -/
structure CompleteMultipartUploadOutput where
  location : Option Str
  bucket : Option Str
  key : Option ObjectKey
  eTag : Option Str
  versionId : Option Str
  checksum : Checksum
  requestIds : RequestIds
  deriving DecidableEq

/-- Request to abort an in-progress multipart upload. -/
structure AbortMultipartUploadRequest where
  key : ObjectKey
  uploadId : UploadId
  headers : HeaderMap

/-! ## Completed parts -/

/-- Invalid multipart state or descriptor. -/
inductive MultipartError where
  | invalidPartNumber (partNumber : Nat)
  | emptyETag (partNumber : Nat)
  | duplicatePart (partNumber : PartNumber)
  | noCompletedParts
  | outOfOrder (previous next : PartNumber)
  deriving DecidableEq

/-- The `Debug` form of a part number. -/
def PartNumber.debug (n : PartNumber) : Str :=
  "PartNumber(".toList ++ decimal n.get ++ ")".toList

def MultipartError.toString : MultipartError → Str
  | .invalidPartNumber n =>
      "multipart part number ".toList ++ decimal n ++
        " is outside 1..=10000".toList
  | .emptyETag n =>
      "multipart part ".toList ++ decimal n ++ " has an empty ETag".toList
  | .duplicatePart n =>
      "multipart part ".toList ++ n.debug ++
        " was recorded more than once".toList
  | .noCompletedParts => "a multipart upload cannot be completed without parts"
  | .outOfOrder previous next =>
      "multipart part ".toList ++ next.debug ++ " does not follow ".toList ++
        previous.debug ++
        " in ascending order".toList

/-- A validated completed-part descriptor. -/
structure CompletedPart where
  partNumber : PartNumber
  eTag : Str
  checksum : Checksum
  tagged : eTag.isBlank = false
  deriving DecidableEq

/-- A part whose number and ETag were checked. -/
def CompletedPart.new (partNumber : Nat) (eTag : Str) :
    Except MultipartError CompletedPart :=
  match PartNumber.new partNumber with
  | none => .error (.invalidPartNumber partNumber)
  | some number =>
      if h : eTag.isBlank = true then .error (.emptyETag number.get)
      else .ok ⟨number, eTag, {}, by simpa using h⟩

def CompletedPart.withChecksum (p : CompletedPart) (checksum : Checksum) :
    CompletedPart :=
  { p with checksum := checksum }

/-- The key `record_part` searches by. -/
def CompletedPart.number (p : CompletedPart) : Nat := p.partNumber.get

theorem CompletedPart.new_ok {n : Nat} {eTag : Str} {p : CompletedPart}
    (h : CompletedPart.new n eTag = .ok p) : p.number = n ∧ p.eTag = eTag := by
  unfold CompletedPart.new at h
  split at h
  · cases h
  · next number hn =>
      split at h
      · cases h
      · cases h
        exact ⟨PartNumber.new_some hn, rfl⟩

/-- A part number of the range and a tag that is not blank are accepted. -/
theorem CompletedPart.new_of_valid (number : PartNumber) {eTag : Str}
    (h : Str.isBlank eTag = false) :
    CompletedPart.new number.get eTag = .ok ⟨number, eTag, {}, h⟩ := by
  unfold CompletedPart.new
  rw [PartNumber.new_of_range number.pos number.le_max]
  simp [h]

/-! ## Recording parts -/

/-- Explicit state needed to resume or clean up an in-progress multipart upload;
the completed parts are private and always in ascending order. -/
structure MultipartUpload where
  key : ObjectKey
  uploadId : UploadId
  completedParts : List CompletedPart
  ascending : Lib.KeySorted CompletedPart.number completedParts

namespace MultipartUpload

def new (key : ObjectKey) (uploadId : UploadId) : MultipartUpload :=
  ⟨key, uploadId, [], List.Pairwise.nil⟩

/-- Records a completed part while retaining canonical ascending order. -/
def recordPart (u : MultipartUpload) (part : CompletedPart) :
    Except MultipartError MultipartUpload :=
  match h :
      Lib.binarySearchByKey CompletedPart.number u.completedParts part.number
          with
  | .ok _ => .error (.duplicatePart part.partNumber)
  | .error index =>
      .ok { u with
        completedParts := u.completedParts.insertIdx index part
        ascending := Lib.insertIdx_sorted u.ascending h }

theorem recordPart_ok {u u' : MultipartUpload} {part : CompletedPart}
    (h : u.recordPart part = .ok u') :
    u'.key = u.key ∧ u'.uploadId = u.uploadId ∧
      u'.completedParts.Perm (part :: u.completedParts) ∧
      ∀ p ∈ u.completedParts, p.number ≠ part.number := by
  unfold recordPart at h
  split at h
  next => cases h
  next index hi =>
      cases h
      exact ⟨rfl, rfl,
        List.perm_insertIdx _ _ (Lib.binarySearch_error u.ascending hi).1,
        Lib.binarySearch_error_notMem u.ascending hi⟩

theorem recordPart_error {u : MultipartUpload} {part : CompletedPart}
    {e : MultipartError} (h : u.recordPart part = .error e) :
    e = .duplicatePart part.partNumber ∧ ∃ p ∈ u.completedParts,
      p.number = part.number := by
  unfold recordPart at h
  split at h
  next i hi =>
      cases h
      obtain ⟨x, hx, hk⟩ := Lib.binarySearch_ok hi
      exact ⟨rfl, x, List.mem_of_getElem? hx, hk⟩
  next => cases h

end MultipartUpload

/-! ## Completion requests -/

/-- The loop over `windows(2)`. -/
def outOfOrder : List CompletedPart → Option MultipartError
  | a :: b :: rest =>
      if b.number ≤ a.number then some (.outOfOrder a.partNumber b.partNumber)
      else outOfOrder (b :: rest)
  | _ => none

/-- There are parts, and their numbers ascend. -/
def validateCompletedParts (parts : List CompletedPart) :
    Except MultipartError Unit :=
  if parts.isEmpty then .error .noCompletedParts
  else
    match outOfOrder parts with
    | some e => .error e
    | none => .ok ()

/-- Request to complete a multipart upload. -/
structure CompleteMultipartUploadRequest where
  key : ObjectKey
  uploadId : UploadId
  completedParts : List CompletedPart
  headers : HeaderMap

/-- The request for a completion of at least one part. -/
def CompleteMultipartUploadRequest.new (key : ObjectKey) (uploadId : UploadId)
    (completedParts : List CompletedPart) :
    Except MultipartError CompleteMultipartUploadRequest :=
  match validateCompletedParts completedParts with
  | .error e => .error e
  | .ok () => .ok ⟨key, uploadId, completedParts, HeaderMap.new⟩

theorem outOfOrder_of_sorted : ∀ {parts : List CompletedPart},
    Lib.KeySorted CompletedPart.number parts → outOfOrder parts = none
  | [], _ => rfl
  | [_], _ => rfl
  | a :: b :: rest, h => by
      obtain ⟨ha, hrest⟩ := List.pairwise_cons.mp h
      have hab : a.number < b.number := ha b (by simp)
      simp only [outOfOrder, Nat.not_le.mpr hab, if_false]
      exact outOfOrder_of_sorted hrest

theorem CompleteMultipartUploadRequest.new_of_upload (u : MultipartUpload)
    (hne : u.completedParts ≠ []) :
    CompleteMultipartUploadRequest.new u.key u.uploadId u.completedParts
      = .ok ⟨u.key, u.uploadId, u.completedParts, HeaderMap.new⟩ := by
  have hempty : u.completedParts.isEmpty = false := by simpa using hne
  simp [CompleteMultipartUploadRequest.new, validateCompletedParts, hempty,
    outOfOrder_of_sorted u.ascending]

end S3Wire
