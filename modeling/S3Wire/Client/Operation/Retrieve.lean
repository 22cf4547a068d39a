/-
# `S3Wire.Client.Operation.Retrieve` — an object and its range, from the response on

`src/client/object/headers/response.rs` and the second half of `get_object` in
`src/client/object/operations.rs`: the headers of a response are parsed, and its
body is streamed under the length that they declare.  The length and the range
come from two headers, and only the length reaches the stream: a ranged download
that ends cleanly has delivered what `Content-Length` says, which is the range
exactly when the two agree (`receiveObject_ranged`).

The base64 library is a parameter.
-/
import S3Wire.Client.Download
import S3Wire.Client.Operation.Listing
import S3Wire.Lib.Fallible

namespace S3Wire

/-! ## Headers of the response -/

section Parsing

variable (text : HttpText) (decodeBase64 : Str → Option Bytes)
  (headers : HeaderMap)

/-- A value that is text, or an error. -/
def responseHeaderValue (value : HeaderValue) : Except S3Error Str :=
  match value.toStr with
  | some value => .ok value
  | none =>
      .error (S3Error.invalidResponse "S3 returned a non-text response header")

/-- A value that is a number of 64 bits. -/
def parseU64Value (value : HeaderValue) : Except S3Error UInt64 :=
  match value.toStr.bind parseU64 with
  | some n => .ok (UInt64.ofNat n)
  | none =>
      .error (S3Error.invalidResponse "S3 returned an invalid content length")

/-- `headers.get(CONTENT_LENGTH).map(parse_u64_value).transpose()` -/
def contentLength : Except S3Error (Option UInt64) :=
  match headers.get "content-length" with
  | none => .ok none
  | some value => (parseU64Value value).map some

/-- A value that is a date of HTTP. -/
def parseHttpDateValue (value : HeaderValue) : Except S3Error Int :=
  match value.toStr.bind text.parseHttpDate with
  | some time => .ok time
  | none => .error (S3Error.invalidResponse "S3 returned an invalid HTTP date")

/-- `headers.get(LAST_MODIFIED).map(parse_http_date_value).transpose()` -/
def lastModified : Except S3Error (Option Int) :=
  match headers.get "last-modified" with
  | none => .ok none
  | some value => (parseHttpDateValue text value).map some

/-- `ok_or_else` -/
def requireLength : Option UInt64 → Except S3Error UInt64
  | some length => .ok length
  | none =>
      .error (S3Error.invalidResponse "S3 omitted the content-length header")

/-- The checksums of an object, as its headers say them. -/
def parseChecksum : Except S3Error Checksum := do
  return { crc32 := ← responseHeader headers "x-amz-checksum-crc32"
           crc32c := ← responseHeader headers "x-amz-checksum-crc32c"
           crc64Nvme := ← responseHeader headers "x-amz-checksum-crc64nvme"
           sha1 := ← responseHeader headers "x-amz-checksum-sha1"
           sha256 := ← responseHeader headers "x-amz-checksum-sha256" }

/-- `BTreeMap::insert`: the map is ordered by its keys, and a later value
replaces an earlier one. -/
def insertOrdered (name value : Str) : List (Str × Str) → List (Str × Str)
  | [] => [(name, value)]
  | (n, v) :: rest =>
      if n = name then (n, value) :: rest
      else if name < n then (name, value) :: (n, v) :: rest
      else (n, v) :: insertOrdered name value rest

/-- The loop over the headers: those of the user, without their prefix. -/
def userMetadata : List (HeaderName × HeaderValue) → List (Str × Str) →
    Except S3Error (List (Str × Str))
  | [], metadata => .ok metadata
  | (name, value) :: rest, metadata =>
      match name.text.dropPrefix? "x-amz-meta-".toList with
      | none => userMetadata rest metadata
      | some suffix => do
          let value ← responseHeaderValue value
          userMetadata rest (insertOrdered suffix value metadata)

/-- What the headers say of an object. -/
def parseObjectMetadata : Except S3Error ObjectMetadata := do
  let declared ← contentLength headers
  let length ← requireLength declared
  let lastModified ← lastModified text headers
  let metadata ← userMetadata headers.iter []
  return { eTag := ← responseHeader headers "etag"
           contentLength := length
           contentType := ← responseHeader headers "content-type"
           lastModified := lastModified
           versionId := ← responseHeader headers "x-amz-version-id"
           userMetadata := metadata
           checksum := ← parseChecksum headers
           requestIds := ← parseRequestIds headers }

/-- The digest of the whole object, where the service gives one. -/
def verifiedDownloadSha256 : Except S3Error (Option Bytes) := do
  match ← responseHeader headers "x-amz-checksum-sha256" with
  | none => return none
  | some encoded =>
      let checksumType ← responseHeader headers "x-amz-checksum-type"
      if checksumType.any fun checksumType =>
        checksumType ≠ "FULL_OBJECT".toList then return none
      else
        match decodeBase64 encoded with
        | none =>
            .error (S3Error.invalidResponse
              "S3 returned an invalid base64 SHA-256 checksum")
        | some decoded =>
            if decoded.length = 32 then return some decoded
            else
              .error
                (S3Error.invalidResponse
                  "S3 returned a SHA-256 checksum with an invalid length")

def invalidContentRange : S3Error :=
  S3Error.invalidResponse "S3 returned an invalid content-range header"

/-- A number of a range. -/
def parseRangeNumber (number : Str) : Except S3Error UInt64 :=
  match parseU64 number with
  | some n => .ok (UInt64.ofNat n)
  | none => .error invalidContentRange

/-- The text of the header: `bytes `, the first and the last octet, and the
length of the whole. -/
def parseRangeText (value : Str) :
    Except S3Error (UInt64 × UInt64 × Option UInt64) :=
  match value.dropPrefix? "bytes ".toList with
  | none => .error invalidContentRange
  | some remainder =>
      match Lib.splitOnce '/' remainder with
      | none => .error invalidContentRange
      | some (range, complete) =>
          match Lib.splitOnce '-' range with
          | none => .error invalidContentRange
          | some (start, stop) => do
              let start ← parseRangeNumber start
              let stop ← parseRangeNumber stop
              if stop < start then .error invalidContentRange
              else if complete = "*".toList then return (start, stop, none)
              else
                let complete ← parseRangeNumber complete
                if complete ≤ stop then
                  .error (S3Error.invalidResponse
                    "S3 returned an inconsistent content-range header")
                else return (start, stop, some complete)

/-- The range that a response says it holds. -/
def parseContentRange :
    Except S3Error (Option (UInt64 × UInt64 × Option UInt64)) := do
  match ← responseHeader headers "content-range" with
  | none => return none
  | some value => return some (← parseRangeText value)

/-- `get_object`, from the response on: its headers, with the body behind
them. -/
def receiveObject (body : List DownloadEvent) : Except S3Error ObjectResponse :=
  do
  let metadata ← parseObjectMetadata text headers
  let contentRange ← parseContentRange headers
  let sha256 ← verifiedDownloadSha256 decodeBase64 headers
  let contentLength ← contentLength headers
  return { metadata := metadata, contentRange := contentRange, sha256 := sha256,
           contentLength := contentLength, body := body }

end Parsing

/-! ## What was parsed -/

section Parsed

variable {text : HttpText} {decodeBase64 : Str → Option Bytes}
  {headers : HeaderMap} {body : List DownloadEvent}
  {response : ObjectResponse}

theorem parseRangeText_ok {value : Str} {start stop : UInt64}
    {complete : Option UInt64}
    (h : parseRangeText value = .ok (start, stop, complete)) :
    start ≤ stop ∧ ∀ n ∈ complete, stop < n := by
  rw [parseRangeText] at h
  split at h
  · cases h
  split at h
  · cases h
  split at h
  · cases h
  obtain ⟨first, -, h⟩ := Lib.bind_ok h
  obtain ⟨last, -, h⟩ := Lib.bind_ok h
  split at h
  · cases h
  next horder =>
  split at h
  · cases h
    refine ⟨UInt64.not_lt.mp horder, ?_⟩
    intro n hn
    cases hn
  · obtain ⟨whole, -, h⟩ := Lib.bind_ok h
    split at h
    · cases h
    next hinside =>
    cases h
    refine ⟨UInt64.not_lt.mp horder, ?_⟩
    intro n hn
    cases hn
    exact UInt64.not_le.mp hinside

/-- An object that is received has its length declared, and its range parsed. -/
theorem receiveObject_ok
    (h : receiveObject text decodeBase64 headers body = .ok response) :
    ∃ length, contentLength headers = .ok (some length) ∧
    response.contentLength = some length ∧
      response.metadata.contentLength = length ∧
      parseContentRange headers = .ok response.contentRange ∧
      response.body = body := by
  obtain ⟨metadata, hmetadata, h⟩ := Lib.bind_ok h
  obtain ⟨contentRange, hrange, h⟩ := Lib.bind_ok h
  obtain ⟨sha256, -, h⟩ := Lib.bind_ok h
  obtain ⟨declared, hdeclared, h⟩ := Lib.bind_ok h
  cases h
  obtain ⟨declared', hdeclared', hmetadata⟩ := Lib.bind_ok hmetadata
  obtain rfl : declared' = declared :=
    Except.ok.inj (hdeclared'.symm.trans hdeclared)
  obtain ⟨length, hlength, hmetadata⟩ := Lib.bind_ok hmetadata
  obtain ⟨lastModified, -, hmetadata⟩ := Lib.bind_ok hmetadata
  obtain ⟨userMetadata, -, hmetadata⟩ := Lib.bind_ok hmetadata
  obtain ⟨eTag, -, hmetadata⟩ := Lib.bind_ok hmetadata
  obtain ⟨contentType, -, hmetadata⟩ := Lib.bind_ok hmetadata
  obtain ⟨versionId, -, hmetadata⟩ := Lib.bind_ok hmetadata
  obtain ⟨checksum, -, hmetadata⟩ := Lib.bind_ok hmetadata
  obtain ⟨requestIds, -, hmetadata⟩ := Lib.bind_ok hmetadata
  cases hmetadata
  cases declared' with
  | none => cases hlength
  | some declared =>
      cases hlength
      exact ⟨_, hdeclared, rfl, rfl, hrange, rfl⟩

theorem parseContentRange_ok {start stop : UInt64} {complete : Option UInt64}
    (h : parseContentRange headers = .ok (some (start, stop, complete))) :
    start ≤ stop ∧ ∀ n ∈ complete, stop < n := by
  obtain ⟨value, -, h⟩ := Lib.bind_ok h
  cases value with
  | none => cases h
  | some value =>
      obtain ⟨range, hrange, h⟩ := Lib.bind_ok h
      cases h
      exact parseRangeText_ok hrange

end Parsed

/-! ## What is delivered -/

/-- The answers of the body of a response to polls at these readings, latest
first. -/
def ObjectResponse.answers (sha : Sha256) (response : ObjectResponse)
    (idleTimeout : Duration) (deadline now : Instant)
    (clocks : List PollClock) : List Polled :=
  (ResponseStream.polls sha clocks
    (response.output idleTimeout deadline now).body).1

/-- The body has ended, and no error came before. -/
def CleanEnd (outs : List Polled) : Prop := .ready none ∈ outs ∧ errors outs = 0

/-- Every clean end, of whatever body, has delivered so many octets. -/
def DeliversAlways (sha : Sha256) (response : ObjectResponse) (octets : Nat) :
    Prop :=
  ∀ body idleTimeout deadline now clocks,
    CleanEnd
      (ObjectResponse.answers sha
        { response with body := body } idleTimeout deadline now clocks) →
      (yielded
        (ObjectResponse.answers sha
          { response with body := body } idleTimeout deadline now
            clocks)).length =
        octets

section Delivered

variable {sha : Sha256} {response : ObjectResponse} {length : UInt64}

theorem deliversAlways_declared
    (hlength : response.contentLength = some length) :
    DeliversAlways sha response length.toNat := by
  intro body idleTimeout deadline now clocks hclean
  have hfresh :=
    @fresh_withDeadline response.contentLength response.expectedSha256 body
      idleTimeout deadline now
  have hcontract := @streamContract sha _ _ _ _ hfresh clocks
  obtain ⟨hsound, hyield⟩ := hcontract.ends hclean.1 hclean.2
  have hcount := hsound.1.2.1 length hlength
  rw [← hcount, ← hyield]
  rfl

/-- A body of so many octets, in chunks that fit in memory. -/
def evenBody (n : Nat) : List DownloadEvent :=
  [.chunk (List.replicate (n / 3) 0), .chunk (List.replicate (n / 3) 0),
    .chunk (List.replicate (n - 2 * (n / 3)) 0), .ended]

theorem length_evenBody (n : Nat) : (bodyBytes (evenBody n)).length = n := by
  simp only [evenBody, bodyBytes, List.length_append, List.length_replicate,
    List.length_nil]
  omega

theorem endsNormally_evenBody (n : Nat) : EndsNormally (evenBody n) := by
  refine ⟨(evenBody n).dropLast, [], rfl, ?_⟩
  intro event hevent
  simp only [evenBody, List.dropLast_cons_cons, List.dropLast_singleton,
    List.mem_cons, List.not_mem_nil, or_false]
    at hevent
  rcases hevent with rfl | rfl | rfl <;> rfl

/-- There is a clean end: a body of the declared length, read without delay. -/
theorem exists_cleanEnd (hlength : response.contentLength = some length)
    (hrange : response.contentRange.isSome = true) :
    ∃ body clocks,
      CleanEnd
        (ObjectResponse.answers sha
          { response with body := body } 1 1 0 clocks) := by
  have hdigest : response.expectedSha256 = none := by
    rw [ObjectResponse.expectedSha256, Option.filter_eq_none_iff]
    intro digest _
    rw [Option.isNone_eq_false_iff.mpr hrange]
    exact Bool.false_ne_true
  have hsound :
      Sound sha response.contentLength response.expectedSha256
          (evenBody length.toNat) := by
    refine ⟨⟨endsNormally_evenBody _, ?_, ?_⟩, ?_⟩
    · intro n hn
      rw [hlength, Option.mem_some_iff] at hn
      rw [length_evenBody, hn]
    · intro expected hexpected
      rw [hdigest] at hexpected
      cases hexpected
    · rw [length_evenBody]
      exact length.toNat_lt
  have hfresh :=
    @fresh_withDeadline response.contentLength response.expectedSha256
      (evenBody length.toNat) 1 1 0
  have hcontract :=
    @streamContract sha _ _ _ _ hfresh (List.replicate 5 ⟨0, 0, 0⟩)
  have htimely := @timely_still sha
    (ResponseStream.withDeadline
      (evenBody length.toNat) response.contentLength response.expectedSha256 1 1
        0)
    (fun due hdue => by cases hdue; exact Nat.one_pos) rfl rfl 5
  obtain ⟨herrors, hend⟩ := hcontract.clean hsound htimely
  exact ⟨evenBody length.toNat, List.replicate 5 ⟨0, 0, 0⟩,
    hend (Nat.lt_succ_self 4), herrors⟩

theorem deliversAlways_iff (hlength : response.contentLength = some length)
    (hrange : response.contentRange.isSome = true) (octets : Nat) :
    DeliversAlways sha response octets ↔ length.toNat = octets := by
  constructor
  · intro h
    obtain ⟨body, clocks, hclean⟩ :=
      @exists_cleanEnd sha response length hlength hrange
    exact (deliversAlways_declared hlength _ _ _ _ _ hclean).symm.trans
      (h _ _ _ _ _ hclean)
  · rintro rfl
    exact deliversAlways_declared hlength

/-- A ranged object that is received has a range in order and its length
declared; its body can end without an error only after as many octets as that
length says, and that is the length of the range exactly when the two headers
agree. -/
theorem receiveObject_ranged (sha : Sha256) {text : HttpText}
    {decodeBase64 : Str → Option Bytes} {headers : HeaderMap}
    {body : List DownloadEvent} {response : ObjectResponse}
    {start stop : UInt64} {complete : Option UInt64}
    (h : receiveObject text decodeBase64 headers body = .ok response)
    (hrange : response.contentRange = some (start, stop, complete)) :
    start ≤ stop ∧ (∀ n ∈ complete, stop < n) ∧
      ∃ length, contentLength headers = .ok (some length) ∧
      DeliversAlways sha response length.toNat ∧
        (DeliversAlways sha response (stop.toNat - start.toNat + 1) ↔
          length.toNat = stop.toNat - start.toNat + 1) := by
  obtain ⟨length, hdeclared, hlength, -, hparsed, -⟩ := receiveObject_ok h
  rw [hrange] at hparsed
  obtain ⟨horder, hinside⟩ := parseContentRange_ok hparsed
  have hsome : response.contentRange.isSome = true := by
    rw [hrange]
    rfl
  exact ⟨horder, hinside, length, hdeclared, deliversAlways_declared hlength,
    deliversAlways_iff hlength hsome _⟩

end Delivered

/-! ## Two headers that disagree -/

theorem contentLength_ne_nil : "content-length".toList ≠ [] := by decide

theorem contentLength_token :
    "content-length".toList.all isHeaderNameChar = true := by decide

theorem contentRange_ne_nil : "content-range".toList ≠ [] := by decide

theorem contentRange_token :
    "content-range".toList.all isHeaderNameChar = true := by decide

theorem three_valid : (Lib.utf8 "3".toList).all isHeaderValueByte = true := by
    decide

theorem tenOctets_valid :
    (Lib.utf8 "bytes 0-9/10".toList).all isHeaderValueByte = true := by decide

/-- A response that declares three octets, and a range of ten. -/
def shortHeaders : HeaderMap :=
  (HeaderMap.new.insert
    ⟨"content-length".toList, contentLength_ne_nil, contentLength_token⟩
    ⟨Lib.utf8 "3".toList, three_valid⟩).insert
      ⟨"content-range".toList, contentRange_ne_nil, contentRange_token⟩
      ⟨Lib.utf8 "bytes 0-9/10".toList, tenOctets_valid⟩

def threeOctets : List DownloadEvent := [.chunk [97, 98, 99], .ended]

def noText : HttpText := ⟨fun _ => none, fun _ => none⟩

/-- What the three octets come with. -/
def shortResponse : ObjectResponse where
  metadata := ⟨none, 3, none, none, none, [], {}, ⟨none, none⟩⟩
  contentRange := some (0, 9, some 10)
  sha256 := none
  contentLength := some 3
  body := threeOctets

theorem receiveObject_short :
    receiveObject noText (fun _ => none) shortHeaders threeOctets =
      .ok shortResponse := rfl

theorem receiveObject_ranged_three :
    shortResponse.contentRange = some (0, 9, some 10) ∧
    DeliversAlways standardSha256 shortResponse 3 := by
  have hrange : shortResponse.contentRange = some (0, 9, some 10) := rfl
  obtain ⟨-, -, length, hlength, hdelivers, -⟩ :=
    receiveObject_ranged standardSha256 receiveObject_short hrange
  have hthree : contentLength shortHeaders = .ok (some 3) := rfl
  rw [hthree] at hlength
  cases hlength
  exact ⟨hrange, hdelivers⟩

/-- It is received, and its body ends without an error after the three. -/
theorem receiveObject_disagrees :
    ∃ response, receiveObject noText (fun _ => none) shortHeaders threeOctets =
      .ok response ∧
      response.contentRange = some (0, 9, some 10) ∧
      CleanEnd (response.answers standardSha256 1 1 0 [⟨0, 0, 0⟩, ⟨0, 0, 0⟩]) ∧
      (yielded
        (response.answers standardSha256 1 1 0 [⟨0, 0, 0⟩, ⟨0, 0, 0⟩])).length ≠
          9 - 0 + 1 := by
  refine ⟨shortResponse, receiveObject_short, rfl, ⟨?_, rfl⟩, ?_⟩
  · exact List.mem_cons_self ..
  · decide

end S3Wire
