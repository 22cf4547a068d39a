/-
# `S3Wire.Client.Operation.Listing` — listings that follow their own tokens

`src/client/object/listing.rs` and `src/client/multipart/listing.rs`.  A page is
one operation, from its request to the parsed document.  The three listings of
all pages are one loop (`Lib.Pager.follow`) over different tokens, and each is
given by its pager; the service answers the page with the number `i` by `service
i`, as it likes.
-/
import S3Wire.Client.Operation.Prepare
import S3Wire.Lib.Paging
import S3Wire.Protocol.Listing

namespace S3Wire

/-! ## Request identifiers -/

/-- A header of a response, as text. -/
def responseHeader (headers : HeaderMap) (name : Str) :
    Except S3Error (Option Str) :=
  match headers.get name with
  | none => .ok none
  | some value =>
      match value.toStr with
      | none =>
          .error (S3Error.invalidResponse
            "S3 returned a non-text response header")
      | some text => .ok (some text)

/-- The two identifiers that a response carries for support. -/
def parseRequestIds (headers : HeaderMap) : Except S3Error RequestIds := do
  let requestId ← responseHeader headers "x-amz-request-id"
  let hostId ← responseHeader headers "x-amz-id-2"
  return ⟨requestId, hostId⟩

/-- A header that helps a diagnosis and never fails one. -/
def diagnosticHeader (headers : HeaderMap) (name : Str) : Option Str :=
  ((headers.get name).bind HeaderValue.toStr).filter fun value =>
    !value.isEmpty && value.len ≤ 1024 && value.all fun c => !isAsciiControl c

/-- `request_ids` of the multipart operations. -/
def requestIds (headers : HeaderMap) : RequestIds where
  requestId := diagnosticHeader headers "x-amz-request-id"
  hostId := diagnosticHeader headers "x-amz-id-2"

/-! ## One page -/

/-- What `send_signed` and `collect_response` make of a call. -/
abbrev Service := SignedSend → Except S3Error (HeaderMap × Bytes)

namespace S3Client

variable (client : S3Client) (env : OperationEnv) (xml : XmlReader)
  (service : Service)

/-- One page of objects. -/
def listObjectsV2Page (request : ListObjectsV2Request) :
    Except S3Error ListObjectsV2Output := do
  let call ← client.listObjectsV2 env request
  let (headers, body) ← service call
  let output ← orProtocolError
    (parseListObjectsV2 xml body client.config.maxXmlResponseSize)
  let requestIds ← parseRequestIds headers
  return { output with requestIds := requestIds }

/-- One page of parts. -/
def listPartsPage (request : ListPartsRequest) :
    Except S3Error ListPartsOutput := do
  let call ← client.listParts env request
  let (headers, body) ← service call
  let output ← orProtocolError
    (parseListParts xml body client.config.maxXmlResponseSize)
  return { output with requestIds := requestIds headers }

/-- One page of uploads. -/
def listMultipartUploadsPage (request : ListMultipartUploadsRequest) :
    Except S3Error ListMultipartUploadsOutput := do
  let call ← client.listMultipartUploads env request
  let (headers, body) ← service call
  let output ← orProtocolError
    (parseListMultipartUploads xml body client.config.maxXmlResponseSize)
  return { output with requestIds := requestIds headers }

end S3Client

/-! ## All pages -/

/-- `validate_page_bound`. -/
def zeroPageBound : S3Error :=
  S3Error.configuration "maximum listing page count must be greater than zero"

/-- More pages than the caller allows. -/
def pageLimitError (operation : Str) : S3Error :=
  S3Error.new .oversizedResponse
    (operation ++ " exceeded the configured page limit".toList) .never

/-- How `list_objects_v2_all` goes from a page to the next request. -/
def objectsPager :
    Lib.Pager ListObjectsV2Request ListObjectsV2Output Str S3Error where
  truncated page := page.isTruncated
  next page := page.nextContinuationToken
  token request := request.continuationToken
  advances _ _ := true
  resume request token :=
    { request with continuationToken := some token, startAfter := none }
  missing :=
    S3Error.invalidResponse
      "truncated listing response omitted its continuation token"
  repeated :=
    S3Error.invalidResponse "listing response repeated a continuation token"
  limit :=
    S3Error.new .oversizedResponse "listing exceeded the configured page limit"
      .never
  token_resume _ _ := rfl

/-- How `list_parts_all` does. -/
def partsPager :
    Lib.Pager ListPartsRequest ListPartsOutput PartNumber S3Error where
  truncated page := page.isTruncated
  next page := page.nextPartNumberMarker
  token request := request.partNumberMarker
  advances request next := request.partNumberMarker.all fun current =>
    current.get < next.get
  resume request token := { request with partNumberMarker := some token }
  missing :=
    S3Error.invalidResponse
      "truncated ListParts response omitted its next marker"
  repeated :=
    S3Error.invalidResponse "ListParts response returned a non-advancing marker"
  limit := pageLimitError "ListParts"
  token_resume _ _ := rfl

/-- The two markers are one token; an upload-ID marker alone is none. -/
def uploadsPager :
    Lib.Pager ListMultipartUploadsRequest ListMultipartUploadsOutput
      (Str × Option UploadId) S3Error where
  truncated page := page.isTruncated
  next page := page.nextKeyMarker.map fun key => (key, page.nextUploadIdMarker)
  token request := request.keyMarker.map fun key =>
    (key, request.uploadIdMarker)
  advances _ _ := true
  resume request token :=
    { request with keyMarker := some token.1, uploadIdMarker := token.2 }
  missing :=
    S3Error.invalidResponse
      "truncated multipart-upload listing omitted its next key marker"
  repeated :=
    S3Error.invalidResponse
      "multipart-upload listing repeated its pagination markers"
  limit := pageLimitError "multipart-upload listing"
  token_resume _ _ := rfl

section Drivers

variable {ρ π τ : Type} [DecidableEq τ]

/-- Nothing is asked for under a bound of zero. -/
def listAll (pager : Lib.Pager ρ π τ S3Error)
    (page : Nat → ρ → Except S3Error π) (request : ρ) (maximumPages : Nat) :
    Lib.Listing ρ π S3Error :=
  if maximumPages = 0 then ⟨[], .error zeroPageBound⟩
  else pager.follow page maximumPages request

end Drivers

namespace S3Client

variable (client : S3Client) (env : OperationEnv) (xml : XmlReader)
  (service : Nat → Service)

/-- `list_objects_v2_all`: every page up to a limit, each request made from the
page before. -/
def listObjectsV2All (request : ListObjectsV2Request) (maximumPages : Nat) :
    Lib.Listing ListObjectsV2Request ListObjectsV2Output S3Error :=
  listAll objectsPager
    (fun i => client.listObjectsV2Page env xml (service i)) request maximumPages

/-- `list_parts_all`, likewise. -/
def listPartsAll (request : ListPartsRequest) (maximumPages : Nat) :
    Lib.Listing ListPartsRequest ListPartsOutput S3Error :=
  listAll partsPager
    (fun i => client.listPartsPage env xml (service i)) request maximumPages

/-- `list_multipart_uploads_all`, likewise. -/
def listMultipartUploadsAll (request : ListMultipartUploadsRequest)
    (maximumPages : Nat) :
    Lib.Listing ListMultipartUploadsRequest ListMultipartUploadsOutput
      S3Error :=
  listAll uploadsPager
    (fun i => client.listMultipartUploadsPage env xml (service i)) request
      maximumPages

end S3Client

/-! ## What holds of every listing -/

section Paged

variable {ρ π τ : Type}

/-- What a caller can rely on, whatever the service answers. -/
structure Paged (pager : Lib.Pager ρ π τ S3Error)
    (page : Nat → ρ → Except S3Error π) (request : ρ) (maximumPages : Nat)
    (listing : Lib.Listing ρ π S3Error) : Prop where
  bounded : listing.exchanges.length ≤ maximumPages
  starts : ∀ x ∈ listing.exchanges.head?, x.1 = request
  asked : Lib.Pager.Asked page listing.exchanges
  /-- Each request but the first is the one before it, with the token of its
  page. -/
  leads : listing.exchanges.IsChain pager.Leads
  distinct : (listing.exchanges.map fun x => pager.token x.1).Nodup
  concluded : (maximumPages = 0 ∧ listing = ⟨[], .error zeroPageBound⟩) ∨
    pager.Concluded maximumPages listing.exchanges listing.result
  succeeds_iff : (∃ pages, listing.result = .ok pages) ↔
    ∃ last answer, listing.exchanges.getLast? = some (last, .ok answer) ∧
      pager.truncated answer = false

theorem listAll_paged [DecidableEq τ] (pager : Lib.Pager ρ π τ S3Error)
    (page : Nat → ρ → Except S3Error π) (request : ρ) (maximumPages : Nat) :
    Paged pager page request maximumPages
      (listAll pager page request maximumPages) := by
  by_cases hzero : maximumPages = 0
  · rw [listAll, if_pos hzero]
    refine ⟨Nat.zero_le _, nofun, nofun, .nil, List.nodup_nil,
      Or.inl ⟨hzero, rfl⟩, iff_of_false nofun ?_⟩
    rintro ⟨last, answer, hlast, -⟩
    cases hlast
  · rw [listAll, if_neg hzero]
    have h := pager.follow_lawful page maximumPages request
    exact ⟨h.bounded, h.starts, h.asked, h.leads, h.distinct,
      Or.inr h.concluded, h.concluded.ok_iff⟩

/-- The number after which parts are asked for; no marker is zero. -/
def ListPartsRequest.marker (request : ListPartsRequest) : Nat :=
  (request.partNumberMarker.map PartNumber.get).getD 0

theorem marker_lt_of_leads
    {first second : ListPartsRequest × Except S3Error ListPartsOutput}
    (h : partsPager.Leads first second) : first.1.marker < second.1.marker := by
  obtain ⟨page, token, -, -, -, hadvances, hresume⟩ := h
  have hnext : second.1.marker = token.get := by
    rw [hresume]
    rfl
  have hadvances :
    (first.1.partNumberMarker.all fun current => current.get < token.get) =
      true := hadvances
  rw [hnext, ListPartsRequest.marker]
  cases hmarker : first.1.partNumberMarker with
  | none => exact token.pos
  | some current =>
      rw [hmarker, Option.all_some, decide_eq_true_eq] at hadvances
      exact hadvances

theorem markers_ascend
    {exchanges : List (ListPartsRequest × Except S3Error ListPartsOutput)}
    (h : exchanges.IsChain partsPager.Leads) :
    (exchanges.map fun x => x.1.marker).Pairwise (· < ·) := by
  rw [← List.isChain_iff_pairwise, List.isChain_map]
  exact h.imp fun _ _ hleads => marker_lt_of_leads hleads

/-- Two tokens of uploads differ only where their markers do. -/
theorem markers_distinct
    {exchanges :
    List (ListMultipartUploadsRequest ×
      Except S3Error ListMultipartUploadsOutput)}
    (h : (exchanges.map fun x => uploadsPager.token x.1).Nodup) :
    (exchanges.map fun x => (x.1.keyMarker, x.1.uploadIdMarker)).Nodup := by
  refine List.Nodup.of_map
    (fun markers => markers.1.map fun key => (key, markers.2)) ?_
  rw [List.map_map]
  exact h

end Paged

namespace S3Client

/-- **Every listing of all pages asks at most as often as it may, never with the
same token again, always with the token of the page before, and succeeds with
all pages or not at all.** -/
theorem listings_paged (client : S3Client) (env : OperationEnv)
    (xml : XmlReader) (service : Nat → Service) (maximumPages : Nat)
    (objects : ListObjectsV2Request) (parts : ListPartsRequest)
    (uploads : ListMultipartUploadsRequest) :
    Paged objectsPager
      (fun i => client.listObjectsV2Page env xml (service i)) objects
        maximumPages
        (client.listObjectsV2All env xml service objects maximumPages) ∧
      Paged partsPager
        (fun i => client.listPartsPage env xml (service i)) parts maximumPages
        (client.listPartsAll env xml service parts maximumPages) ∧
      ((client.listPartsAll env xml service parts maximumPages).exchanges.map
        fun x => x.1.marker).Pairwise (· < ·) ∧
      Paged uploadsPager
        (fun i => client.listMultipartUploadsPage env xml (service i)) uploads
          maximumPages
        (client.listMultipartUploadsAll env xml service uploads maximumPages) ∧
      ((client.listMultipartUploadsAll env xml service uploads
        maximumPages).exchanges.map
        fun x => (x.1.keyMarker, x.1.uploadIdMarker)).Nodup := by
  have hparts :=
    listAll_paged partsPager
      (fun i => client.listPartsPage env xml (service i)) parts maximumPages
  have huploads :=
    listAll_paged uploadsPager
      (fun i => client.listMultipartUploadsPage env xml (service i))
    uploads maximumPages
  exact ⟨listAll_paged _ _ _ _, hparts, markers_ascend hparts.leads, huploads,
    markers_distinct huploads.distinct⟩

end S3Client

end S3Wire
