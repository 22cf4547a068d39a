/-
# `S3Wire.Client.Operation.Resume` — completing an upload from a listing of its parts

`list_parts_all` of `src/client/multipart/listing.rs` and what a resumed upload
does with its pages.  The parser puts the parts of one page in order and the
driver lets the markers only go up, but nothing compares the parts of a page
with the marker it was asked with or with the page before.  So the listing can
be completed exactly when the pages of the service go on from each other
(`listPartsAll_resumable_iff`); pages that overlap are returned all the same
(`listPartsAll_overlaps`).
-/
import S3Wire.Client.Operation.Listing
import S3Wire.Client.Request.Targets

namespace S3Wire

/-! ## Completed parts -/

theorem completedParts_of_tagged : ∀ {parts : List ListedPart},
    (∀ part ∈ parts, part.eTag.isBlank = false) → ∃ completed,
      parts.mapM ListedPart.completedPart = .ok completed ∧
        completed.map CompletedPart.number = parts.map ListedPart.number
  | [], _ => ⟨[], rfl, rfl⟩
  | part :: rest, h => by
      obtain ⟨htagged, hrest⟩ := List.forall_mem_cons.mp h
      obtain ⟨completed, hcompleted, hnumbers⟩ := completedParts_of_tagged hrest
      refine ⟨⟨part.partNumber, part.eTag, part.checksum, htagged⟩ :: completed,
        ?_, ?_⟩
      · rw [List.mapM_cons, ListedPart.completedPart_of_tagged htagged,
          hcompleted]
        rfl
      · rw [List.map_cons, List.map_cons, hnumbers]
        rfl

theorem CompleteMultipartUploadRequest.new_of_sorted {key : ObjectKey}
    {uploadId : UploadId} {parts : List CompletedPart} (hne : parts ≠ [])
    (hsorted : Lib.KeySorted CompletedPart.number parts) :
    new key uploadId parts = .ok ⟨key, uploadId, parts, HeaderMap.new⟩ := by
  have hempty : parts.isEmpty = false := List.isEmpty_eq_false_iff.mpr hne
  rw [new, validateCompletedParts, hempty, outOfOrder_of_sorted hsorted]
  rfl

/-! ## A listing that can be completed -/

/-- The parts of all pages, in the order in which they came. -/
def listedPartsOf (pages : List ListPartsOutput) : List ListedPart :=
  (pages.map ListPartsOutput.parts).flatten

/-- What a resumed upload asks of a listing. -/
structure Resumable (request : ListPartsRequest)
    (pages : List ListPartsOutput) : Prop where
  ascending : Lib.KeySorted ListedPart.number (listedPartsOf pages)
  later : ∀ marker ∈ request.partNumberMarker, ∀ part ∈ listedPartsOf pages,
    marker.get < part.number
  completes : ∃ completed, (listedPartsOf pages).mapM ListedPart.completedPart =
    .ok completed ∧
    (completed ≠ [] →
      CompleteMultipartUploadRequest.new request.key request.uploadId
        completed =
      .ok ⟨request.key, request.uploadId, completed, HeaderMap.new⟩)

section Resume

variable {client : S3Client} {env : OperationEnv} {xml : XmlReader}
  {service : Nat → Service}
  {request : ListPartsRequest} {maximumPages : Nat}
  {pages : List ListPartsOutput}

theorem listPartsPage_ok {answer : Service} {page : ListPartsOutput}
    (h : client.listPartsPage env xml answer request = .ok page) :
    (∀ part ∈ page.parts, part.eTag.isBlank = false) ∧
    Lib.KeySorted ListedPart.number page.parts := by
  obtain ⟨call, -, h⟩ := Lib.bind_ok h
  obtain ⟨⟨headers, body⟩, -, h⟩ := Lib.bind_ok h
  obtain ⟨output, hparse, h⟩ := Lib.bind_ok h
  cases h
  have hpage := parseListParts_ok (orProtocolError_ok hparse)
  exact hpage

theorem page_of_listing
    (h : (client.listPartsAll env xml service request maximumPages).result =
      .ok pages) :
    ∀ page ∈ pages, ∃ i asked, client.listPartsPage env xml (service i) asked =
      .ok page := by
  have hpaged :=
    listAll_paged partsPager
      (fun i => client.listPartsPage env xml (service i)) request maximumPages
  intro page hpage
  rcases hpaged.concluded with ⟨-, hnone⟩ | hconcluded
  · rw [S3Client.listPartsAll, hnone] at h
    cases h
  · rw [S3Client.listPartsAll] at h
    rw [h] at hconcluded
    cases hconcluded with
    | complete hpages =>
        have hmem :
          (.ok page : Except S3Error ListPartsOutput) ∈ pages.map .ok :=
            List.mem_map_of_mem hpage
        rw [← hpages] at hmem
        obtain ⟨x, hx, hanswer⟩ := List.mem_map.mp hmem
        obtain ⟨i, hi⟩ := List.mem_iff_getElem?.mp hx
        exact ⟨i, x.1, (hpaged.asked i x hi).symm.trans hanswer⟩

theorem mem_listedPartsOf {part : ListedPart} :
    part ∈ listedPartsOf pages ↔ ∃ page ∈ pages, part ∈ page.parts := by
  rw [listedPartsOf, List.mem_flatten]
  constructor
  · rintro ⟨parts, hparts, hpart⟩
    obtain ⟨page, hpage, rfl⟩ := List.mem_map.mp hparts
    exact ⟨page, hpage, hpart⟩
  · rintro ⟨page, hpage, hpart⟩
    exact ⟨page.parts, List.mem_map_of_mem hpage, hpart⟩

theorem marker_lt_iff {parts : List ListedPart} :
    (∀ part ∈ parts, request.marker < part.number) ↔
      ∀ marker ∈ request.partNumberMarker, ∀ part ∈ parts,
        marker.get < part.number := by
  rw [ListPartsRequest.marker]
  cases request.partNumberMarker with
  | none =>
      refine iff_of_true (fun part _ => part.partNumber.pos) ?_
      intro marker hmarker
      cases hmarker
  | some marker =>
      constructor
      · intro h marker' hmarker'
        cases hmarker'
        exact h
      · intro h
        exact h marker rfl

/-- **A listing can be completed exactly when every page of the service goes on
after the parts before it.** -/
theorem listPartsAll_resumable_iff
    (h : (client.listPartsAll env xml service request maximumPages).result =
      .ok pages) :
    Resumable request pages ↔
      Lib.Continues ListedPart.number request.marker
        (pages.map ListPartsOutput.parts) := by
  have hpages :
      ∀ page ∈ pages, (∀ part ∈ page.parts, part.eTag.isBlank = false) ∧
      Lib.KeySorted ListedPart.number page.parts := by
    intro page hpage
    obtain ⟨i, asked, hanswer⟩ := page_of_listing h page hpage
    exact listPartsPage_ok hanswer
  have hsorted : ∀ parts ∈ pages.map ListPartsOutput.parts,
      Lib.KeySorted ListedPart.number parts := by
    intro parts hparts
    obtain ⟨page, hpage, rfl⟩ := List.mem_map.mp hparts
    exact (hpages page hpage).2
  rw [Lib.continues_iff hsorted, marker_lt_iff]
  constructor
  · rintro ⟨hascending, hlater, -⟩
    exact ⟨hascending, hlater⟩
  · rintro ⟨hascending, hlater⟩
    have htagged : ∀ part ∈ listedPartsOf pages, part.eTag.isBlank = false := by
      intro part hpart
      obtain ⟨page, hpage, hmem⟩ := mem_listedPartsOf.mp hpart
      exact (hpages page hpage).1 part hmem
    obtain ⟨completed, hcompleted, hnumbers⟩ := completedParts_of_tagged htagged
    refine ⟨hascending, hlater, completed, hcompleted, ?_⟩
    intro hne
    refine CompleteMultipartUploadRequest.new_of_sorted hne ?_
    have hkeys : (completed.map CompletedPart.number).Pairwise (· < ·) := by
      rw [hnumbers]
      exact List.pairwise_map.mpr hascending
    exact List.pairwise_map.mp hkeys

end Resume

/-! ## Two pages of a service -/

/-- The text of a page with parts of one octet. -/
def samplePageText (numbers : List UInt16) (next : Option UInt16) : Str :=
  "<ListPartsResult>".toList ++
    numbers.flatMap
      (fun number => "<Part><PartNumber>".toList ++ decimal number.toNat ++
      "</PartNumber><ETag>a</ETag><Size>1</Size></Part>".toList) ++
    next.toList.flatMap
      (fun marker =>
        "<IsTruncated>true</IsTruncated><NextPartNumberMarker>".toList ++
      decimal marker.toNat ++ "</NextPartNumberMarker>".toList) ++
        "</ListPartsResult>".toList

def samplePage (numbers : List UInt16) (next : Option UInt16) :
    ListPartsDocument where
  parts := numbers.map fun number => ⟨number, "a", none, 1, {}⟩
  isTruncated := next.isSome
  nextPartNumberMarker := next
  checksumAlgorithm := none
  checksumType := none

/-- The XML library on the pages of the sample. -/
def sampleReader : XmlReader where
  rootName _ := .ok "ListPartsResult"
  listBucket _ := none
  listUploads _ := none
  listParts text :=
    if text = samplePageText [1, 2] (some 1) then
      some (samplePage [1, 2] (some 1))
    else if text = samplePageText [1] (some 1) then
      some (samplePage [1] (some 1))
    else if text = samplePageText [2] none then some (samplePage [2] none)
    else none
  parseRfc3339 _ := .error "not a date"
  utf8Error _ := "invalid utf-8"

def sampleOperationEnv : OperationEnv where
  deadline := Duration.fromSecs 60
  prepared := none
  formatHttpDate _ := []
  md5 _ := []
  copyEmbeddedError _ _ := .ok none
  uploadPartCopyEmbeddedError _ _ := .ok none
  completeMultipartEmbeddedError _ _ := .ok none

theorem listedKey_nonempty : "key".toList ≠ [] := by decide

theorem listedKey_bounded : Str.len "key".toList ≤ maxObjectKeyBytes := by
    decide

theorem listedUploadId_nonempty : "upload".toList ≠ [] := by decide

theorem listedUploadId_bounded : Str.len "upload".toList ≤ 2048 := by decide

theorem listedUploadId_plain :
    ("upload".toList.all fun c => !(c.toNat < 32 || c.toNat == 127)) =
      true := by decide

def sampleListParts : ListPartsRequest :=
  .new ⟨"key", listedKey_nonempty, listedKey_bounded⟩
    ⟨"upload", listedUploadId_nonempty, listedUploadId_bounded,
      listedUploadId_plain⟩

/-- A first page, and the second part on the page after it. -/
def sampleService (first : Str) (i : Nat) : Service := fun _ =>
  .ok (HeaderMap.new,
    Lib.utf8 (if i = 0 then first else samplePageText [2] none))

section Sample

variable {numbers : List UInt16} {next : Option UInt16}
  {parts : List ListedPart} {marker : Option PartNumber}

theorem parseListParts_sample
    (hsize : (Lib.utf8 (samplePageText numbers next)).length ≤
      SendState.sampleConfig.maxXmlResponseSize)
    (hplain :
    (asciiContainsIgnoreCase (Lib.utf8 (samplePageText numbers next))
      (Lib.utf8 "<!DOCTYPE".toList) ||
      asciiContainsIgnoreCase (Lib.utf8 (samplePageText numbers next))
        (Lib.utf8 "<!ENTITY".toList)) = false)
    (hread : sampleReader.listParts (samplePageText numbers next) =
      some (samplePage numbers next))
    (hparts : listedParts sampleReader none (samplePage numbers next).parts =
      .ok parts)
    (hmarker : next.mapM (parsePartNumber "NextPartNumberMarker") =
      .ok marker) :
    parseListParts sampleReader
      (Lib.utf8 (samplePageText numbers next))
        SendState.sampleConfig.maxXmlResponseSize =
      .ok ⟨parts, next.isSome, marker, none, none, ⟨none, none⟩⟩ := by
  have htext :
      boundedText
        (Lib.utf8 (samplePageText numbers next))
          SendState.sampleConfig.maxXmlResponseSize =
      .ok (samplePageText numbers next) := by
    rw [boundedText, if_neg (not_lt.mpr hsize), hplain, Lib.utf8Decode_utf8]
    rfl
  have hroot : expectRoot sampleReader (Lib.utf8 (samplePageText numbers next))
      SendState.sampleConfig.maxXmlResponseSize "ListPartsResult" = .ok () := by
    rw [expectRoot, htext]
    rfl
  have hdocument :
      parseBounded sampleReader.listParts
        (Lib.utf8 (samplePageText numbers next))
      SendState.sampleConfig.maxXmlResponseSize =
          .ok (samplePage numbers next) := by
    rw [parseBounded, htext]
    dsimp only
    rw [hread]
  have hrest : (samplePage numbers next).nextPartNumberMarker = next := rfl
  simp only [parseListParts, hroot, hdocument, hparts, hrest, hmarker, bind,
    Except.bind]
  rfl

def samplePart (number : PartNumber) : ListedPart := ⟨number, "a", none, 1, {}⟩

theorem one_le_max : 1 ≤ 10000 := by decide

theorem two_le_max : 2 ≤ 10000 := by decide

def partOne : PartNumber := ⟨1, Nat.one_pos, one_le_max⟩

def partTwo : PartNumber := ⟨2, Nat.two_pos, two_le_max⟩

def sampleOutput (numbers : List PartNumber) (next : Option PartNumber) :
    ListPartsOutput :=
  ⟨numbers.map samplePart, next.isSome, next, none, none, ⟨none, none⟩⟩

theorem sample_second :
    parseListParts sampleReader (Lib.utf8 (samplePageText [2] none))
    SendState.sampleConfig.maxXmlResponseSize =
      .ok (sampleOutput [partTwo] none) := by
  refine parseListParts_sample (by decide +kernel)
    (by decide +kernel) ?_ rfl rfl
  rw [sampleReader]
  dsimp only
  rw [if_neg (by decide +kernel), if_neg (by decide +kernel), if_pos rfl]

theorem listPartsPage_sample {text : Str} {request : ListPartsRequest}
    {page : ListPartsOutput}
    (hrequest : request = sampleListParts ∨
      request = { sampleListParts with partNumberMarker := some partOne })
    (hparse :
      parseListParts sampleReader
        (Lib.utf8 text) SendState.sampleConfig.maxXmlResponseSize = .ok page)
    (hids : page.requestIds = ⟨none, none⟩) :
    SendState.sampleClient.listPartsPage sampleOperationEnv sampleReader
      (fun _ => .ok (HeaderMap.new, Lib.utf8 text)) request = .ok page := by
  obtain ⟨call, hcall⟩ :
      ∃ call, SendState.sampleClient.listParts sampleOperationEnv request =
          .ok call := by
    rcases hrequest with rfl | rfl
    · exact ⟨_, rfl⟩
    · exact ⟨_, rfl⟩
  have hmaximum : SendState.sampleClient.config.maxXmlResponseSize =
    SendState.sampleConfig.maxXmlResponseSize := rfl
  have hnone : requestIds HeaderMap.new = ⟨none, none⟩ := rfl
  simp only [S3Client.listPartsPage, hcall, hmaximum, hparse, orProtocolError,
    hnone, bind, Except.bind]
  rw [← hids]
  rfl

theorem sample_listing {first : Str} {numbers : List PartNumber}
    (hfirst :
    parseListParts sampleReader
      (Lib.utf8 first) SendState.sampleConfig.maxXmlResponseSize =
      .ok (sampleOutput numbers (some partOne))) :
    (SendState.sampleClient.listPartsAll sampleOperationEnv sampleReader
      (sampleService first) sampleListParts
      2).result =
        .ok [sampleOutput numbers (some partOne),
          sampleOutput [partTwo] none] := by
  have hzero := listPartsPage_sample (Or.inl rfl) hfirst rfl
  have hone := listPartsPage_sample (Or.inr rfl) sample_second rfl
  rw [S3Client.listPartsAll, listAll, if_neg (by decide), Lib.Pager.follow,
    Lib.Pager.loop]
  have hfirstPage :
      SendState.sampleClient.listPartsPage sampleOperationEnv sampleReader
        (sampleService first 0)
      sampleListParts = .ok (sampleOutput numbers (some partOne)) := hzero
  have hsecondPage :
      SendState.sampleClient.listPartsPage sampleOperationEnv sampleReader
        (sampleService first 1)
      { sampleListParts with partNumberMarker := some partOne } =
        .ok (sampleOutput [partTwo] none) := hone
  have htruncated :
      ¬ partsPager.truncated (sampleOutput numbers (some partOne)) = false := by
    intro h
    cases h
  have hnext : partsPager.next (sampleOutput numbers (some partOne)) =
    some partOne := rfl
  have hgood : ¬ (partsPager.advances sampleListParts partOne = false ∨
      partOne ∈ (partsPager.token sampleListParts).toList) := by
    rintro (h | h)
    · cases h
    · cases h
  simp only [List.length_nil, hfirstPage]
  rw [if_neg htruncated, hnext]
  dsimp only
  rw [if_neg hgood]
  show (partsPager.loop _ 1 [partOne]
    { sampleListParts with partNumberMarker := some partOne }
    [(sampleListParts, sampleOutput numbers (some partOne))]).result = _
  rw [Lib.Pager.loop]
  simp only [List.length_singleton, hsecondPage]
  rfl

/-- The pages of the listing go on from each other. -/
theorem listPartsAll_resumable_two_pages :
    Resumable sampleListParts
      [sampleOutput [partOne] (some partOne), sampleOutput [partTwo] none] ↔
      Lib.Continues ListedPart.number 0
        [[samplePart partOne], [samplePart partTwo]] := by
  have hfirst :
      parseListParts sampleReader (Lib.utf8 (samplePageText [1] (some 1)))
      SendState.sampleConfig.maxXmlResponseSize =
          .ok (sampleOutput [partOne] (some partOne)) := by
    refine parseListParts_sample (by decide +kernel)
      (by decide +kernel) ?_ rfl rfl
    rw [sampleReader]
    dsimp only
    rw [if_neg (by decide +kernel), if_pos rfl]
  exact listPartsAll_resumable_iff (sample_listing hfirst)

/-- A service whose second page repeats a part of the first: the listing
succeeds, and cannot be completed. -/
theorem listPartsAll_overlaps : ∃ pages completed,
    (SendState.sampleClient.listPartsAll sampleOperationEnv sampleReader
      (sampleService (samplePageText [1, 2] (some 1))) sampleListParts
        2).result = .ok pages ∧
      (listedPartsOf pages).map ListedPart.number = [1, 2, 2] ∧
      (listedPartsOf pages).mapM ListedPart.completedPart = .ok completed ∧
      CompleteMultipartUploadRequest.new sampleListParts.key
        sampleListParts.uploadId completed =
        .error (.outOfOrder partTwo partTwo) := by
  have hfirst :
      parseListParts sampleReader (Lib.utf8 (samplePageText [1, 2] (some 1)))
      SendState.sampleConfig.maxXmlResponseSize =
          .ok (sampleOutput [partOne, partTwo] (some partOne)) := by
    refine parseListParts_sample (by decide +kernel)
      (by decide +kernel) ?_ rfl rfl
    rw [sampleReader]
    dsimp only
    rw [if_pos rfl]
  exact ⟨_, _, sample_listing hfirst, rfl, rfl, rfl⟩

end Sample

end S3Wire
