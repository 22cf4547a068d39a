/-
# `S3Wire.Client.Operation.BrowseUploads` — listing the parts and the uploads a service holds

`list_parts_all` and `list_multipart_uploads_all` of
`src/client/multipart/listing.rs` against services as in
`S3Wire.Client.Operation.Browse`.  The cursor of a listing of parts is a part
number; that of a listing of uploads is a key and an upload ID, or a common
prefix alone.  Parts that were listed so can be completed: they are all the
parts after the marker, in order (`listPartsAll_complete`).

Keys of uploads are not encoded, so the XML library has to be able to read them
as they are; that is what `UploadStore.ServedBy` asks of it.
-/
import S3Wire.Client.Operation.Browse

namespace S3Wire

/-! ## Parts -/

section Parts

/-- The parts of an upload, and how its service lists them. -/
structure PartStore where
  parts : List ListedPart
  ascending : Lib.KeySorted ListedPart.number parts
  tagged : ∀ part ∈ parts, part.eTag.isBlank = false
  batch : Nat → Nat
  batch_pos : ∀ i, 0 < batch i

/-- A document says what the part is. -/
structure WritesPart (xml : XmlReader) (part : ListedPart)
    (document : PartDocument) : Prop where
  number : document.partNumber.toNat = part.number
  eTag : document.eTag = part.eTag
  lastModified :
    document.lastModified.mapM (parseTime xml "Part.LastModified") =
      .ok part.lastModified
  size : document.size = part.size
  checksum : document.checksum = part.checksum

namespace PartStore

variable (store : PartStore)

/-- What comes after a marker. -/
def left (marker : Option Nat) : List ListedPart :=
  Lib.after ListedPart.number marker store.parts

/-- The parts after the marker of a query. -/
def leftFor (query : List QueryParam) : List ListedPart :=
  store.left ((param "part-number-marker" query).bind readDecimal)

/-- A page of the parts says what the store holds, up to its cut. -/
structure Writes (xml : XmlReader) (i : Nat) (query : List QueryParam)
    (document : ListPartsDocument) : Prop where
  parts : List.Forall₂ (WritesPart xml)
    ((store.leftFor query).take (store.batch i)) document.parts
  isTruncated : document.isTruncated =
    decide (store.batch i < (store.leftFor query).length)
  marker : ∀ next ∈ document.nextPartNumberMarker, PartNumber.new next.toNat ≠
    none
  next : ∀ last, ((store.leftFor query).take (store.batch i)).getLast? =
    some last →
    document.isTruncated = true →
      document.nextPartNumberMarker.map UInt16.toNat = some last.number

/-- The service answers a listing of this upload with the documents of the
store. -/
def ServedBy (client : S3Client) (xml : XmlReader) (uploadId : UploadId)
    (service : Nat → Service) : Prop :=
  ∀ i call, param "uploadId" call.query = some uploadId.text →
    ∃ headers body document,
    service i call = .ok (headers, body) ∧
    expectRoot xml body client.config.maxXmlResponseSize "ListPartsResult" =
      .ok () ∧
    parseBounded xml.listParts body client.config.maxXmlResponseSize =
      .ok document ∧
    store.Writes xml i call.query document

end PartStore

/-- The parameters of a request for a page of parts. -/
def partsFields (request : ListPartsRequest) : List (Str × Option Str) :=
  [("max-parts", some (decimal request.maxParts.get)),
    ("uploadId", some request.uploadId.text),
    ("part-number-marker", request.partNumberMarker.map fun marker =>
      decimal marker.get)]

theorem partsFields_distinct (request : ListPartsRequest) :
    ((partsFields request).map Prod.fst).Nodup := by
  show (["max-parts", "uploadId", "part-number-marker"] : List Str).Nodup
  decide

theorem listPartsQuery_eq (request : ListPartsRequest) :
    listPartsQuery request = fieldsQuery (partsFields request) := by
  have hpresent : ∀ (name value : Str) (rest : List QueryParam),
      (⟨name, value⟩ :: rest : List QueryParam) =
        optionalQuery name (some value) ++ rest := fun _ _ _ => rfl
  rw [listPartsQuery, hpresent, hpresent]
  simp only [fieldsQuery, partsFields, List.flatMap_cons, List.flatMap_nil,
    List.append_assoc,
    List.append_nil]

variable {store : PartStore} {client : S3Client} {env : OperationEnv}
  {xml : XmlReader} {service : Nat → Service}
  {request : ListPartsRequest}

theorem parsePartNumber_of_toNat {field : Str} {value : UInt16}
    {number : PartNumber} (h : value.toNat = number.get) :
    parsePartNumber field value = .ok number := by
  rw [parsePartNumber, h, PartNumber.new_of_range number.pos number.le_max]

theorem listedParts_of_writes {parts : List ListedPart}
    {documents : List PartDocument}
    (h : List.Forall₂ (WritesPart xml) parts documents) :
    ∀ {previous : Option PartNumber},
      Lib.KeySorted ListedPart.number parts →
      (∀ part ∈ parts, part.eTag.isBlank = false) →
      (∀ number ∈ previous, ∀ part ∈ parts, number.get < part.number) →
        listedParts xml previous documents = .ok parts := by
  induction h with
  | nil => exact fun _ _ _ => rfl
  | @cons part document parts documents hwrites hrest ih =>
      intro previous hsorted htagged hprevious
      obtain ⟨hbefore, hsorted⟩ := List.pairwise_cons.mp hsorted
      rw [List.forall_mem_cons] at htagged
      have hascending :
          (previous.any fun value => decide (part.partNumber.get ≤ value.get)) =
              false := by
        cases previous with
        | none => rfl
        | some number =>
            rw [Option.any_some, decide_eq_false_iff_not, not_le]
            exact hprevious number rfl part (List.mem_cons_self ..)
      have hlisted : listedPart xml previous document = .ok part := by
        rw [listedPart, parsePartNumber_of_toNat hwrites.number]
        show (if (previous.any fun value =>
          decide (part.partNumber.get ≤ value.get)) then _ else _) = _
        rw [hascending, hwrites.eTag, htagged.1]
        show (document.lastModified.mapM (parseTime xml "Part.LastModified") >>=
          _) = _
        rw [hwrites.lastModified, hwrites.size, hwrites.checksum]
        rfl
      have hlater : listedParts xml (some part.partNumber) documents =
          .ok parts := by
        refine ih hsorted htagged.2 ?_
        intro number hnumber later hlater
        cases hnumber
        exact hbefore later hlater
      rw [listedParts, hlisted]
      show (listedParts xml (some part.partNumber) documents >>= _) = _
      rw [hlater]
      rfl

theorem leftFor_listPartsQuery (store : PartStore)
    (request : ListPartsRequest) :
    store.leftFor (listPartsQuery request) =
      store.left (request.partNumberMarker.map PartNumber.get) := by
  have hmarker : param "part-number-marker" (listPartsQuery request) =
      request.partNumberMarker.map fun marker => decimal marker.get := by
    rw [listPartsQuery_eq]
    exact param_fieldsQuery (partsFields_distinct request)
      (by simp [partsFields])
  rw [PartStore.leftFor, hmarker]
  cases request.partNumberMarker with
  | none => rfl
  | some marker => exact congrArg store.left (readDecimal_decimal marker.get)

theorem listPartsPage_of_served
    (h : store.ServedBy client xml request.uploadId service)
    (hprepared : ∃ call, client.listParts env request = .ok call) (i : Nat) :
    ∃ page, client.listPartsPage env xml (service i) request = .ok page ∧
      page.parts = (store.leftFor (listPartsQuery request)).take
        (store.batch i) ∧
      page.isTruncated =
        decide (store.batch i <
          (store.leftFor (listPartsQuery request)).length) ∧
      ∀ last, ((store.leftFor (listPartsQuery request)).take
        (store.batch i)).getLast? = some last →
        page.isTruncated = true →
        page.nextPartNumberMarker = some last.partNumber := by
  obtain ⟨call, hcall⟩ := hprepared
  have hquery : call.query = listPartsQuery request := by
    obtain ⟨target, -, hcall⟩ := Lib.bind_ok hcall
    obtain ⟨headers, -, hcall⟩ := Lib.bind_ok hcall
    cases hcall
    rfl
  have hupload : param "uploadId" call.query = some request.uploadId.text := by
    rw [hquery, listPartsQuery_eq]
    exact param_fieldsQuery (partsFields_distinct request)
      (by simp [partsFields])
  obtain ⟨headers, body, document, hservice, hroot, hdocument, hwrites⟩ :=
    h i call hupload
  rw [← hquery]
  have hleft : ∀ part ∈ (store.leftFor call.query).take (store.batch i),
      part ∈ store.parts :=
    fun part hpart => (Lib.mem_after.mp (List.mem_of_mem_take hpart)).1
  have hsorted :
      Lib.KeySorted ListedPart.number
          ((store.leftFor call.query).take (store.batch i)) :=
    (List.Pairwise.filter _ store.ascending).sublist (List.take_sublist _ _)
  have hparts :
      listedParts xml none document.parts =
          .ok ((store.leftFor call.query).take (store.batch i)) :=
    listedParts_of_writes hwrites.parts hsorted
      (fun part hpart => store.tagged part (hleft part hpart)) nofun
  obtain ⟨marker, hmarker, hnext⟩ : ∃ marker,
      document.nextPartNumberMarker.mapM
        (parsePartNumber "NextPartNumberMarker") = .ok marker ∧
        marker.map PartNumber.get =
            document.nextPartNumberMarker.map UInt16.toNat := by
    cases hnext : document.nextPartNumberMarker with
    | none => exact ⟨none, rfl, rfl⟩
    | some next =>
        obtain ⟨number, hnumber⟩ :=
          Option.ne_none_iff_exists'.mp (hwrites.marker next hnext)
        have hget := PartNumber.new_some hnumber
        refine ⟨some number, ?_, congrArg some hget⟩
        show (parsePartNumber "NextPartNumberMarker" next).map some = _
        rw [parsePartNumber_of_toNat hget.symm]
        rfl
  have hparse : parseListParts xml body client.config.maxXmlResponseSize = .ok {
      parts := (store.leftFor call.query).take (store.batch i)
      isTruncated := document.isTruncated
      nextPartNumberMarker := marker
      checksumAlgorithm := document.checksumAlgorithm
      checksumType := document.checksumType.map ChecksumType.parse
      requestIds := ⟨none, none⟩ } := by
    rw [parseListParts, hroot]
    show (parseBounded xml.listParts body client.config.maxXmlResponseSize >>=
      _) = _
    rw [hdocument]
    show (listedParts xml none document.parts >>= _) = _
    rw [hparts]
    show (document.nextPartNumberMarker.mapM
      (parsePartNumber "NextPartNumberMarker") >>= _) = _
    rw [hmarker]
    rfl
  refine ⟨ListPartsOutput.mk _ _ marker document.checksumAlgorithm
    (document.checksumType.map ChecksumType.parse)
    (requestIds headers), ?_, rfl, hwrites.isTruncated, ?_⟩
  · rw [S3Client.listPartsPage, hcall]
    show (service i call >>= _) = _
    rw [hservice]
    show (orProtocolError
      (parseListParts xml body client.config.maxXmlResponseSize) >>= _) = _
    rw [hparse]
    rfl
  · intro last hlast hmore
    have hget := hnext.trans (hwrites.next last hlast hmore)
    obtain ⟨number, hnumber, hlastNumber⟩ := Option.map_eq_some_iff.mp hget
    exact hnumber.trans (congrArg some (PartNumber.ext_get hlastNumber))

theorem listParts_prepared {other : ListPartsRequest}
    (hheaders : other.headers = request.headers)
    (hkey : other.key = request.key)
    (h : ∃ call, client.listParts env request = .ok call) :
    ∃ call, client.listParts env other = .ok call := by
  obtain ⟨call, h⟩ := h
  obtain ⟨target, htarget, h⟩ := Lib.bind_ok h
  obtain ⟨headers, hrequest, h⟩ := Lib.bind_ok h
  refine ⟨SignedSend.mk "GET" target
    (listPartsQuery other) headers none env.deadline .streaming, ?_⟩
  rw [S3Client.listParts, hkey, htarget]
  show (requestHeaders other.headers >>= _) = _
  rw [hheaders, hrequest]
  rfl

theorem goes_listParts (h : store.ServedBy client xml request.uploadId service)
    (hprepared : ∃ call, client.listParts env request = .ok call) :
    partsPager.Goes (fun i => client.listPartsPage env xml (service i))
      (fun other =>
        Lib.after ListedPart.number
          (other.partNumberMarker.map PartNumber.get) store.parts)
      (fun page parts => page.parts = parts)
      (fun other => other.headers = request.headers ∧ other.key = request.key ∧
        other.uploadId = request.uploadId) := by
  refine Lib.Pager.Goes.of_cut store.ascending store.batch_pos ?_ ?_
  · rintro i other ⟨hheaders, hkey, hupload⟩
    obtain ⟨page, hpage, hholds, htruncated, hnext⟩ :=
      listPartsPage_of_served (hupload ▸ h)
        (listParts_prepared hheaders hkey hprepared) i
    rw [leftFor_listPartsQuery, PartStore.left] at hholds htruncated hnext
    refine ⟨page, hpage, hholds, htruncated, ?_⟩
    intro last hmem hlast hmore
    refine ⟨last.partNumber, hnext last hlast hmore, ?_,
      ⟨hheaders, hkey, hupload⟩, rfl⟩
    -- the last part is after the marker, so the marker advances
    show (other.partNumberMarker.all fun current =>
      decide (current.get < last.partNumber.get)) = true
    cases hmarker : other.partNumberMarker with
    | none => rfl
    | some current =>
        rw [Option.all_some, decide_eq_true_eq]
        refine (Lib.mem_after.mp hmem).2 current.get ?_
        rw [hmarker]
        rfl
  · intro first second _ _ token hfirst hsecond
    have hfirst : first.partNumberMarker = some token := hfirst
    have hsecond : second.partNumberMarker = some token := hsecond
    rw [hfirst, hsecond]

/-- **A listing of parts is the parts, ready to be completed**: all that come
after the marker, in order, or it was allowed fewer pages than there are
parts. -/
theorem listPartsAll_complete
    (h : store.ServedBy client xml request.uploadId service)
    (hprepared : ∃ call, client.listParts env request = .ok call)
    {maximumPages : Nat} (hpos : 0 < maximumPages) :
    let left := store.left (request.partNumberMarker.map PartNumber.get)
    (∃ pages,
      (client.listPartsAll env xml service request maximumPages).result =
        .ok pages ∧
      listedPartsOf pages = left ∧ Resumable request pages) ∨
    ((client.listPartsAll env xml service request maximumPages).result =
      .error partsPager.limit ∧
      maximumPages < left.length) := by
  intro left
  rw [S3Client.listPartsAll, listAll, if_neg hpos.ne']
  rcases Lib.Pager.follow_goes (goes_listParts h hprepared) maximumPages
      ⟨rfl, rfl, rfl⟩ with
    ⟨pages, hresult, hall⟩ | ⟨hresult, hbound⟩
  · have hparts : listedPartsOf pages = left := by
      have hsome := hall.flatten_map ListPartsOutput.parts some fun _ _ hpage =>
        hpage.trans List.filterMap_some.symm
      rw [List.filterMap_some] at hsome
      exact hsome
    have hmem : ∀ part ∈ left, part ∈ store.parts ∧
        ∀ marker ∈ request.partNumberMarker.map PartNumber.get,
            marker < part.number :=
      fun part hpart => Lib.mem_after.mp hpart
    have hsorted : Lib.KeySorted ListedPart.number left :=
      List.Pairwise.filter _ store.ascending
    refine Or.inl ⟨pages, hresult, hparts, hparts ▸ hsorted, ?_, ?_⟩
    · intro marker hmarker part hpart
      rw [hparts] at hpart
      exact (hmem part hpart).2 marker.get (Option.mem_map_of_mem _ hmarker)
    · rw [hparts]
      obtain ⟨completed, hcompleted, hnumbers⟩ :=
        completedParts_of_tagged fun part hpart =>
          store.tagged part (hmem part hpart).1
      refine ⟨completed, hcompleted, ?_⟩
      intro hne
      refine CompleteMultipartUploadRequest.new_of_sorted hne ?_
      have hnumbered :
          (completed.map CompletedPart.number).Pairwise (· < ·) := by
        rw [hnumbers, List.pairwise_map]
        exact hsorted
      exact List.pairwise_map.mp hnumbered
  · exact Or.inr ⟨hresult, hbound.resolve_left hpos.ne'⟩

/-! ### An upload of two parts -/

def sampleParts : List ListedPart := [samplePart partOne, samplePart partTwo]

theorem sampleParts_ascending :
    Lib.KeySorted ListedPart.number sampleParts := by
  rw [Lib.KeySorted, sampleParts, List.pairwise_pair]
  decide

theorem sampleParts_tagged :
    ∀ part ∈ sampleParts, part.eTag.isBlank = false := by decide

/-- One part on a page. -/
def sampleStore : PartStore :=
  ⟨sampleParts, sampleParts_ascending, sampleParts_tagged, fun _ => 1,
    fun _ => Nat.one_pos⟩

/-- The page for what is left. -/
def samplePartsPage (left : List ListedPart) : ListPartsDocument where
  parts :=
    (left.take 1).map fun part =>
      ⟨UInt16.ofNat part.number, part.eTag, none, part.size, part.checksum⟩
  isTruncated := decide (1 < left.length)
  nextPartNumberMarker := (left.take 1).getLast?.map fun part =>
    UInt16.ofNat part.number
  checksumAlgorithm := none
  checksumType := none

def samplePartsText (left : List ListedPart) : Str :=
  "<ListPartsResult>".toList ++ decimal left.length ++
    "</ListPartsResult>".toList

def samplePartsReader : XmlReader where
  rootName _ := .ok "ListPartsResult"
  listBucket _ := none
  listUploads _ := none
  listParts text :=
    if text = samplePartsText sampleParts then
      some (samplePartsPage sampleParts)
    else if text = samplePartsText (sampleParts.drop 1) then
      some (samplePartsPage (sampleParts.drop 1))
    else some (samplePartsPage [])
  parseRfc3339 _ := .error "not a date"
  utf8Error _ := "invalid utf-8"

def samplePartsService (_ : Nat) : Service := fun call =>
  .ok (HeaderMap.new,
    Lib.utf8 (samplePartsText (sampleStore.leftFor call.query)))

theorem sampleStore_left (query : List QueryParam) :
    sampleStore.leftFor query = sampleParts ∨
    sampleStore.leftFor query = sampleParts.drop 1 ∨
    sampleStore.leftFor query = [] := by
  rw [PartStore.leftFor]
  cases (param "part-number-marker" query).bind readDecimal with
  | none => exact Or.inl rfl
  | some marker =>
      match marker with
      | 0 => exact Or.inl rfl
      | 1 => exact Or.inr (Or.inl rfl)
      | marker + 2 => exact Or.inr (Or.inr rfl)

theorem sampleStore_read {left : List ListedPart}
    (hleft : left = sampleParts ∨ left = sampleParts.drop 1 ∨ left = []) :
    boundedText
      (Lib.utf8 (samplePartsText left))
        SendState.sampleConfig.maxXmlResponseSize =
        .ok (samplePartsText left) ∧
      samplePartsReader.listParts (samplePartsText left) =
        some (samplePartsPage left) := by
  rcases hleft with rfl | rfl | rfl
  · refine ⟨boundedText_sample (by decide +kernel) (by decide +kernel), ?_⟩
    rw [samplePartsReader]
    dsimp only
    rw [if_pos rfl]
  · refine ⟨boundedText_sample (by decide +kernel) (by decide +kernel), ?_⟩
    rw [samplePartsReader]
    dsimp only
    rw [if_neg (by decide +kernel), if_pos rfl]
  · refine ⟨boundedText_sample (by decide +kernel) (by decide +kernel), ?_⟩
    rw [samplePartsReader]
    dsimp only
    rw [if_neg (by decide +kernel), if_neg (by decide +kernel)]

theorem sampleStore_served :
    sampleStore.ServedBy SendState.sampleClient samplePartsReader
      sampleListParts.uploadId samplePartsService := by
  intro i call _
  have hleft := sampleStore_left call.query
  obtain ⟨htext, hread⟩ := sampleStore_read hleft
  refine ⟨HeaderMap.new, _, samplePartsPage (sampleStore.leftFor call.query),
    rfl, ?_, ?_, ?_⟩
  · exact expectRoot_of_text htext rfl
  · exact parseBounded_of_text htext hread
  · refine ⟨?_, rfl, ?_, ?_⟩
    · rcases hleft with h | h | h
      · rw [h]
        exact .cons ⟨rfl, rfl, rfl, rfl, rfl⟩ .nil
      · rw [h]
        exact .cons ⟨rfl, rfl, rfl, rfl, rfl⟩ .nil
      · rw [h]
        exact .nil
    · intro next hnext
      rcases hleft with h | h | h
      · rw [h] at hnext
        cases hnext
        decide
      · rw [h] at hnext
        cases hnext
        decide
      · rw [h] at hnext
        cases hnext
    · intro last hlast _
      rcases hleft with h | h | h
      · rw [h] at hlast ⊢
        cases hlast
        rfl
      · rw [h] at hlast ⊢
        cases hlast
        rfl
      · rw [h] at hlast
        cases hlast

/-- Two pages, of one part each. -/
theorem listPartsAll_complete_two_pages :
    ∃ pages,
      (SendState.sampleClient.listPartsAll sampleOperationEnv samplePartsReader
        samplePartsService
      sampleListParts 2).result = .ok pages ∧
      listedPartsOf pages = sampleParts ∧
        Resumable sampleListParts pages := by
  have hprepared :
    ∃ call, SendState.sampleClient.listParts sampleOperationEnv
      sampleListParts = .ok call := ⟨_, rfl⟩
  rcases listPartsAll_complete sampleStore_served hprepared Nat.two_pos
    with ⟨pages, hresult, hparts, hresumable⟩ |
    ⟨-, hbound⟩
  · exact ⟨pages, hresult, hparts, hresumable⟩
  · exact absurd hbound (lt_irrefl 2)

end Parts

/-! ## Uploads -/

section Uploads

/-- A line of a listing of uploads. -/
inductive UploadLine where
  | upload (entry : MultipartUploadEntry)
  | group (commonPrefix : Str)

namespace UploadLine

/-- The markers from which a listing goes on after the line. -/
def markers : UploadLine → Str × Option UploadId
  | .upload entry => (entry.key.text, some entry.uploadId)
  | .group commonPrefix => (commonPrefix, none)

def upload? : UploadLine → Option MultipartUploadEntry
  | .upload entry => some entry
  | .group _ => none

def group? : UploadLine → Option Str
  | .upload _ => none
  | .group commonPrefix => some commonPrefix

end UploadLine

/-- The open uploads of a bucket, and how their service lists them. -/
structure UploadStore (κ : Type) [LinearOrder κ] where
  lines : Option Str → Option Str → List UploadLine
  /-- Where two markers are in the order of the listing. -/
  rank : Str × Option Str → κ
  ascending : ∀ keyPrefix delimiter,
    Lib.KeySorted
      (fun line => rank (line.markers.1, line.markers.2.map UploadId.text))
        (lines keyPrefix delimiter)
  named : ∀ keyPrefix delimiter, ∀ line ∈ lines keyPrefix delimiter,
    line.markers.1 ≠ []
  batch : Nat → Nat
  batch_pos : ∀ i, 0 < batch i

/-- A document says what the upload is. -/
structure WritesUpload (xml : XmlReader) (entry : MultipartUploadEntry)
    (document : UploadDocument) : Prop where
  key : document.key = entry.key.text
  uploadId : document.uploadId = entry.uploadId.text
  initiated : document.initiated.mapM (parseTime xml "Upload.Initiated") =
    .ok entry.initiated
  storageClass : document.storageClass = entry.storageClass

namespace UploadStore

variable {κ : Type} [LinearOrder κ] (store : UploadStore κ)

/-- What comes after the markers; an upload-ID marker says nothing alone. -/
def left (keyPrefix delimiter keyMarker uploadIdMarker : Option Str) :
    List UploadLine :=
  Lib.after
    (fun line => store.rank (line.markers.1, line.markers.2.map UploadId.text))
    (keyMarker.map fun key => store.rank (key, uploadIdMarker))
      (store.lines keyPrefix delimiter)

def leftFor (query : List QueryParam) : List UploadLine :=
  store.left (param "prefix" query) (param "delimiter" query)
    (param "key-marker" query)
    (param "upload-id-marker" query)

/-- The document of the page `i`.  A marker that is not there may be written as
an empty one. -/
structure Writes (xml : XmlReader) (i : Nat) (query : List QueryParam)
    (document : ListUploadsDocument) : Prop where
  uploads : List.Forall₂ (WritesUpload xml)
    (((store.leftFor query).take (store.batch i)).filterMap UploadLine.upload?)
      document.uploads
  commonPrefixes : document.commonPrefixes =
    ((store.leftFor query).take (store.batch i)).filterMap UploadLine.group?
  isTruncated : document.isTruncated =
    decide (store.batch i < (store.leftFor query).length)
  marker : ∃ uploadId : Option UploadId,
    document.nextUploadIdMarker.filter (fun value => !value.isEmpty) =
      uploadId.map UploadId.text
  next : ∀ last, ((store.leftFor query).take (store.batch i)).getLast? =
    some last → document.isTruncated = true →
    document.nextKeyMarker = some last.markers.1 ∧
      document.nextUploadIdMarker.filter (fun value => !value.isEmpty) =
        last.markers.2.map UploadId.text

/-- Each answer is a page of this store, written as the query asks. -/
def ServedBy (client : S3Client) (xml : XmlReader) (service : Nat → Service) :
    Prop :=
  ∀ i call, param "uploads" call.query = some [] → ∃ headers body document,
    service i call = .ok (headers, body) ∧
    expectRoot xml body client.config.maxXmlResponseSize
      "ListMultipartUploadsResult" = .ok () ∧
    parseBounded xml.listUploads body client.config.maxXmlResponseSize =
      .ok document ∧
    store.Writes xml i call.query document

end UploadStore

/-- A page holds a batch of lines. -/
def HoldsUploads (page : ListMultipartUploadsOutput) (lines : List UploadLine) :
    Prop :=
  page.uploads = lines.filterMap UploadLine.upload? ∧
    page.commonPrefixes = lines.filterMap UploadLine.group?

/-- The parameters of a request for a page of uploads. -/
def uploadsFields (request : ListMultipartUploadsRequest) :
    List (Str × Option Str) :=
  [("uploads", some []), ("delimiter", request.delimiter),
    ("key-marker", request.keyMarker),
    ("max-uploads", some (decimal request.maxUploads.get)),
      ("prefix", request.keyPrefix),
    ("upload-id-marker", request.uploadIdMarker.map UploadId.text)]

theorem uploadsFields_distinct (request : ListMultipartUploadsRequest) :
    ((uploadsFields request).map Prod.fst).Nodup := by
  show (["uploads", "delimiter", "key-marker", "max-uploads", "prefix",
    "upload-id-marker"] : List Str).Nodup
  decide

theorem listUploadsQuery_ok {request : ListMultipartUploadsRequest}
    {query : List QueryParam} (h : listUploadsQuery request = .ok query) :
    query = fieldsQuery (uploadsFields request) := by
  have hpresent : ∀ name value : Str, ([⟨name, value⟩] : List QueryParam) =
      optionalQuery name (some value) :=
    fun _ _ => rfl
  rw [listUploadsQuery] at h
  split at h
  · cases h
  · cases h
    rw [createQuery, hpresent, hpresent]
    simp only [fieldsQuery, uploadsFields, List.flatMap_cons, List.flatMap_nil,
      List.append_assoc, List.append_nil]

theorem parseUploadId_text (field : Str) (uploadId : UploadId) :
    parseUploadId field uploadId.text = .ok uploadId := by
  rw [parseUploadId, UploadId.new, dif_neg uploadId.nonempty,
    dif_pos uploadId.bounded, dif_pos uploadId.noControl]

theorem parseKey_text (field : Str) (key : ObjectKey) :
    parseKey field key.text = .ok key := by
  rw [parseKey, ObjectKey.new, dif_neg key.nonempty, dif_pos key.bounded]

theorem uploadEntry_of_writes {xml : XmlReader} {entry : MultipartUploadEntry}
    {document : UploadDocument} (h : WritesUpload xml entry document) :
    uploadEntry xml document = .ok entry := by
  rw [uploadEntry, h.uploadId, parseUploadId_text]
  show (document.initiated.mapM (parseTime xml "Upload.Initiated") >>= _) = _
  rw [h.initiated, h.storageClass, h.key]
  show (parseKey "Upload.Key" entry.key.text >>= _) = _
  rw [parseKey_text]
  rfl

variable {κ : Type} [LinearOrder κ] {store : UploadStore κ} {client : S3Client}
  {env : OperationEnv} {xml : XmlReader}
  {service : Nat → Service} {request : ListMultipartUploadsRequest}

theorem leftFor_listUploadsQuery (store : UploadStore κ)
    {query : List QueryParam} (h : listUploadsQuery request = .ok query) :
    store.leftFor query =
      store.left request.keyPrefix request.delimiter request.keyMarker
      (request.uploadIdMarker.map UploadId.text) := by
  have hfield : ∀ {name : Str} {value : Option Str},
      (name, value) ∈ uploadsFields request →
      param name query = value := by
    intro name value hmem
    rw [listUploadsQuery_ok h]
    exact param_fieldsQuery (uploadsFields_distinct request) hmem
  rw [UploadStore.leftFor,
    @hfield "prefix" request.keyPrefix (by simp [uploadsFields]),
    @hfield "delimiter" request.delimiter (by simp [uploadsFields]),
    @hfield "key-marker" request.keyMarker (by simp [uploadsFields]),
    @hfield "upload-id-marker" (request.uploadIdMarker.map UploadId.text)
      (by simp [uploadsFields])]

theorem listMultipartUploadsPage_of_served
    (h : store.ServedBy client xml service)
    (hprepared : ∃ call, client.listMultipartUploads env request = .ok call)
    (i : Nat) :
    let left := store.left request.keyPrefix request.delimiter request.keyMarker
      (request.uploadIdMarker.map UploadId.text)
    ∃ page, client.listMultipartUploadsPage env xml (service i) request =
      .ok page ∧
      HoldsUploads page (left.take (store.batch i)) ∧
        page.isTruncated = decide (store.batch i < left.length) ∧
      ∀ last, (left.take (store.batch i)).getLast? = some last →
        page.isTruncated = true →
        page.nextKeyMarker = some last.markers.1 ∧
            page.nextUploadIdMarker = last.markers.2 := by
  intro left
  obtain ⟨call, hcall⟩ := hprepared
  have hquery : listUploadsQuery request = .ok call.query := by
    obtain ⟨target, -, hcall⟩ := Lib.bind_ok hcall
    obtain ⟨query, hquery, hcall⟩ := Lib.bind_ok hcall
    obtain ⟨headers, -, hcall⟩ := Lib.bind_ok hcall
    cases hcall
    exact hquery
  have huploads : param "uploads" call.query = some [] := by
    rw [listUploadsQuery_ok hquery]
    exact param_fieldsQuery (uploadsFields_distinct request)
      (by simp [uploadsFields])
  obtain ⟨headers, body, document, hservice, hroot, hdocument, hwrites⟩ :=
    h i call huploads
  have hleft : store.leftFor call.query = left :=
    leftFor_listUploadsQuery store hquery
  obtain ⟨uploads, commonPrefixes, isTruncated, marker, next⟩ := hwrites
  rw [hleft] at uploads commonPrefixes isTruncated next
  have hentries : document.uploads.mapM (uploadEntry xml) =
      .ok ((left.take (store.batch i)).filterMap UploadLine.upload?) :=
    Lib.mapM_of_forall₂ uploads.flip fun _ _ hwritten =>
      uploadEntry_of_writes hwritten
  obtain ⟨uploadId, huploadId⟩ := marker
  have hmarker :
      (document.nextUploadIdMarker.filter fun value => !value.isEmpty).mapM
      (parseUploadId "NextUploadIdMarker") = .ok uploadId := by
    rw [huploadId]
    cases uploadId with
    | none => rfl
    | some uploadId =>
        show (parseUploadId "NextUploadIdMarker" uploadId.text).map some = _
        rw [parseUploadId_text]
        rfl
  have hparse :
      parseListMultipartUploads xml body client.config.maxXmlResponseSize =
        .ok {
      uploads := (left.take (store.batch i)).filterMap UploadLine.upload?
      commonPrefixes := document.commonPrefixes
      isTruncated := document.isTruncated
      nextKeyMarker := document.nextKeyMarker.filter fun value => !value.isEmpty
      nextUploadIdMarker := uploadId
      requestIds := ⟨none, none⟩ } := by
    rw [parseListMultipartUploads, hroot]
    show (parseBounded xml.listUploads body client.config.maxXmlResponseSize >>=
      _) = _
    rw [hdocument]
    show (document.uploads.mapM (uploadEntry xml) >>= _) = _
    rw [hentries]
    show ((document.nextUploadIdMarker.filter fun value => !value.isEmpty).mapM
      (parseUploadId "NextUploadIdMarker") >>= _) = _
    rw [hmarker]
    rfl
  refine ⟨ListMultipartUploadsOutput.mk _ _ _
    (document.nextKeyMarker.filter fun value => !value.isEmpty) uploadId
    (requestIds headers), ?_, ⟨rfl, commonPrefixes⟩, isTruncated, ?_⟩
  · rw [S3Client.listMultipartUploadsPage, hcall]
    show (service i call >>= _) = _
    rw [hservice]
    show (orProtocolError
      (parseListMultipartUploads xml body client.config.maxXmlResponseSize) >>=
        _) = _
    rw [hparse]
    rfl
  · intro last hlast hmore
    obtain ⟨hkey, hid⟩ := next last hlast hmore
    have hnamed : last.markers.1 ≠ [] := by
      refine store.named request.keyPrefix request.delimiter last ?_
      exact (Lib.mem_after.mp
        (List.mem_of_mem_take (List.mem_of_getLast? hlast))).1
    constructor
    · show document.nextKeyMarker.filter (fun value => !value.isEmpty) = _
      rw [hkey, Option.filter_some, if_pos (by simpa using hnamed)]
    · exact Option.map_injective UploadId.text_injective
        (huploadId.symm.trans hid)

theorem listMultipartUploads_prepared {other : ListMultipartUploadsRequest}
    (hheaders : other.headers = request.headers)
    (hmarkers : other.uploadIdMarker.isSome = true →
      other.keyMarker.isSome = true)
    (h : ∃ call, client.listMultipartUploads env request = .ok call) :
    ∃ call, client.listMultipartUploads env other = .ok call := by
  obtain ⟨call, h⟩ := h
  obtain ⟨target, htarget, h⟩ := Lib.bind_ok h
  obtain ⟨query, -, h⟩ := Lib.bind_ok h
  obtain ⟨headers, hrequest, h⟩ := Lib.bind_ok h
  obtain ⟨query', hquery⟩ : ∃ query', listUploadsQuery other = .ok query' := by
    refine ⟨_, if_neg ?_⟩
    rintro ⟨hid, hnone⟩
    rw [Option.isNone_iff_eq_none] at hnone
    rw [hnone] at hmarkers
    cases hmarkers hid
  refine ⟨SignedSend.mk "GET" target query' headers none env.deadline
    .streaming, ?_⟩
  rw [S3Client.listMultipartUploads, htarget]
  show (listUploadsQuery other >>= _) = _
  rw [hquery]
  show (requestHeaders other.headers >>= _) = _
  rw [hheaders, hrequest]
  rfl

theorem markers_of_prepared
    (h : ∃ call, client.listMultipartUploads env request = .ok call) :
    request.uploadIdMarker.isSome = true → request.keyMarker.isSome = true := by
  obtain ⟨call, h⟩ := h
  obtain ⟨target, -, h⟩ := Lib.bind_ok h
  obtain ⟨query, hquery, -⟩ := Lib.bind_ok h
  rw [listUploadsQuery] at hquery
  split at hquery
  · cases hquery
  · next hmarkers =>
      intro hid
      by_contra hkey
      rw [Bool.not_eq_true, Option.isSome_eq_false_iff] at hkey
      exact hmarkers ⟨hid, hkey⟩

theorem goes_listMultipartUploads (h : store.ServedBy client xml service)
    (hprepared : ∃ call, client.listMultipartUploads env request = .ok call) :
    uploadsPager.Goes
      (fun i => client.listMultipartUploadsPage env xml (service i))
      (fun other =>
        Lib.after
          (fun line =>
            store.rank (line.markers.1, line.markers.2.map UploadId.text))
        (other.keyMarker.map fun key =>
          store.rank (key, other.uploadIdMarker.map UploadId.text))
        (store.lines request.keyPrefix request.delimiter))
      HoldsUploads
      (fun other => other.headers = request.headers ∧
        other.keyPrefix = request.keyPrefix ∧
        other.delimiter = request.delimiter ∧
        (other.uploadIdMarker.isSome = true →
          other.keyMarker.isSome = true)) := by
  refine Lib.Pager.Goes.of_cut
    (store.ascending request.keyPrefix request.delimiter) store.batch_pos ?_ ?_
  · rintro i other ⟨hheaders, hprefix, hdelimiter, hmarkers⟩
    obtain ⟨page, hpage, hholds, htruncated, hnext⟩ :=
      listMultipartUploadsPage_of_served h
        (listMultipartUploads_prepared hheaders hmarkers hprepared) i
    rw [UploadStore.left, hprefix, hdelimiter] at hholds htruncated hnext
    refine ⟨page, hpage, hholds, htruncated, ?_⟩
    intro last _ hlast hmore
    obtain ⟨hkey, hid⟩ := hnext last hlast hmore
    refine ⟨last.markers, ?_, rfl,
      ⟨hheaders, hprefix, hdelimiter, fun _ => rfl⟩, rfl⟩
    show (page.nextKeyMarker.map fun key => (key, page.nextUploadIdMarker)) = _
    rw [hkey, hid]
    rfl
  · intro first second _ _ token hfirst hsecond
    have hread : ∀ {other : ListMultipartUploadsRequest},
        uploadsPager.token other = some token →
        (other.keyMarker.map fun key =>
          store.rank (key, other.uploadIdMarker.map UploadId.text)) =
          some (store.rank (token.1, token.2.map UploadId.text)) := by
      intro other hother
      obtain ⟨key, hkey, heq⟩ := Option.map_eq_some_iff.mp hother
      rw [hkey, ← heq]
      rfl
    rw [hread hfirst, hread hsecond]

/-- **A listing of uploads is the uploads**: every line after the markers, once
and in order, or it was allowed fewer pages than there are lines. -/
theorem listMultipartUploadsAll_complete (h : store.ServedBy client xml service)
    (hprepared : ∃ call, client.listMultipartUploads env request = .ok call)
    {maximumPages : Nat} (hpos : 0 < maximumPages) :
    let left := store.left request.keyPrefix request.delimiter request.keyMarker
      (request.uploadIdMarker.map UploadId.text)
    (∃ pages,
      (client.listMultipartUploadsAll env xml service request
        maximumPages).result = .ok pages ∧
      (pages.map ListMultipartUploadsOutput.uploads).flatten =
        left.filterMap UploadLine.upload? ∧
      (pages.map ListMultipartUploadsOutput.commonPrefixes).flatten =
        left.filterMap UploadLine.group?) ∨
    ((client.listMultipartUploadsAll env xml service request
      maximumPages).result = .error uploadsPager.limit ∧
      maximumPages < left.length) := by
  intro left
  rw [S3Client.listMultipartUploadsAll, listAll, if_neg hpos.ne']
  rcases Lib.Pager.follow_goes
      (goes_listMultipartUploads h hprepared) maximumPages
      ⟨rfl, rfl, rfl, markers_of_prepared hprepared⟩ with ⟨pages, hresult,
        hall⟩ | ⟨hresult, hbound⟩
  · exact Or.inl ⟨pages, hresult, hall.flatten_map _ _ fun _ _ hpage => hpage.1,
      hall.flatten_map _ _ fun _ _ hpage => hpage.2⟩
  · exact Or.inr ⟨hresult, hbound.resolve_left hpos.ne'⟩

/-! ### Two uploads to one key -/

def sampleUpload (uploadId : UploadId) : MultipartUploadEntry :=
  ⟨sampleListParts.key, uploadId, none, none⟩

theorem sampleUploadId_ne : "a".toList ≠ [] := by decide

def sampleUploads : List UploadLine :=
  [.upload (sampleUpload ⟨"a".toList, sampleUploadId_ne, by decide, by decide⟩),
    .upload (sampleUpload ⟨"bb".toList, by decide, by decide, by decide⟩)]

/-- By the length of the upload ID. -/
def sampleRank (markers : Str × Option Str) : Nat :=
  (markers.2.map List.length).getD 0

theorem sampleUploads_ascending : Lib.KeySorted
    (fun line => sampleRank (line.markers.1, line.markers.2.map UploadId.text))
      sampleUploads := by
  rw [Lib.KeySorted, sampleUploads, List.pairwise_pair]
  decide

theorem sampleUploads_named : ∀ line ∈ sampleUploads, line.markers.1 ≠ [] := by
  rw [sampleUploads, List.forall_mem_cons, List.forall_mem_singleton]
  exact ⟨sampleListParts.key.nonempty, sampleListParts.key.nonempty⟩

/-- One upload on a page. -/
def sampleUploadStore : UploadStore Nat where
  lines _ _ := sampleUploads
  rank := sampleRank
  ascending _ _ := sampleUploads_ascending
  named _ _ := sampleUploads_named
  batch _ := 1
  batch_pos _ := Nat.one_pos

/-- The page for what is left. -/
def sampleUploadsPage (left : List UploadLine) : ListUploadsDocument where
  uploads := ((left.take 1).filterMap UploadLine.upload?).map fun entry =>
    ⟨entry.key.text, entry.uploadId.text, none, none⟩
  commonPrefixes := []
  isTruncated := decide (1 < left.length)
  nextKeyMarker := (left.take 1).getLast?.map fun line => line.markers.1
  nextUploadIdMarker := (left.take 1).getLast?.bind fun line =>
    line.markers.2.map UploadId.text

def sampleUploadsText (left : List UploadLine) : Str :=
  "<ListMultipartUploadsResult>".toList ++ decimal left.length ++
    "</ListMultipartUploadsResult>".toList

def sampleUploadsReader : XmlReader where
  rootName _ := .ok "ListMultipartUploadsResult"
  listBucket _ := none
  listUploads text :=
    if text = sampleUploadsText sampleUploads then
      some (sampleUploadsPage sampleUploads)
    else if text = sampleUploadsText (sampleUploads.drop 1) then
      some (sampleUploadsPage (sampleUploads.drop 1))
    else some (sampleUploadsPage [])
  listParts _ := none
  parseRfc3339 _ := .error "not a date"
  utf8Error _ := "invalid utf-8"

def sampleUploadsService (_ : Nat) : Service := fun call =>
  .ok (HeaderMap.new,
    Lib.utf8 (sampleUploadsText (sampleUploadStore.leftFor call.query)))

theorem sampleUploadStore_left (query : List QueryParam) :
    sampleUploadStore.leftFor query = sampleUploads ∨
    sampleUploadStore.leftFor query = sampleUploads.drop 1 ∨
    sampleUploadStore.leftFor query = [] := by
  rw [UploadStore.leftFor, UploadStore.left]
  cases (param "key-marker" query).map fun key =>
      sampleUploadStore.rank (key, param "upload-id-marker" query) with
  | none => exact Or.inl rfl
  | some marker =>
      match marker with
      | 0 => exact Or.inl rfl
      | 1 => exact Or.inr (Or.inl rfl)
      | marker + 2 => exact Or.inr (Or.inr rfl)

theorem sampleUploadStore_read {left : List UploadLine}
    (hleft : left = sampleUploads ∨ left = sampleUploads.drop 1 ∨ left = []) :
    boundedText
      (Lib.utf8 (sampleUploadsText left))
        SendState.sampleConfig.maxXmlResponseSize =
        .ok (sampleUploadsText left) ∧
      sampleUploadsReader.listUploads (sampleUploadsText left) =
        some (sampleUploadsPage left) := by
  rcases hleft with rfl | rfl | rfl
  · refine ⟨boundedText_sample (by decide +kernel) (by decide +kernel), ?_⟩
    rw [sampleUploadsReader]
    dsimp only
    rw [if_pos rfl]
  · refine ⟨boundedText_sample (by decide +kernel) (by decide +kernel), ?_⟩
    rw [sampleUploadsReader]
    dsimp only
    rw [if_neg (by decide +kernel), if_pos rfl]
  · refine ⟨boundedText_sample (by decide +kernel) (by decide +kernel), ?_⟩
    rw [sampleUploadsReader]
    dsimp only
    rw [if_neg (by decide +kernel), if_neg (by decide +kernel)]

theorem writesUpload_sample (uploadId : UploadId) :
    WritesUpload sampleUploadsReader (sampleUpload uploadId)
    ⟨sampleListParts.key.text, uploadId.text, none, none⟩ :=
  ⟨rfl, rfl, rfl, rfl⟩

theorem sampleUploadStore_served :
    sampleUploadStore.ServedBy SendState.sampleClient sampleUploadsReader
      sampleUploadsService := by
  intro i call _
  have hleft := sampleUploadStore_left call.query
  obtain ⟨htext, hread⟩ := sampleUploadStore_read hleft
  refine ⟨HeaderMap.new, _,
    sampleUploadsPage (sampleUploadStore.leftFor call.query), rfl, ?_, ?_, ?_⟩
  · exact expectRoot_of_text htext rfl
  · exact parseBounded_of_text htext hread
  · rcases hleft with h | h | h
    · refine ⟨?_, ?_, rfl, ?_, ?_⟩
      · rw [h]
        exact .cons (writesUpload_sample _) .nil
      · rw [h]
        rfl
      · rw [h]
        exact ⟨some ⟨"a".toList, by decide, by decide, by decide⟩, rfl⟩
      · intro last hlast _
        rw [h] at hlast ⊢
        cases hlast
        exact ⟨rfl, rfl⟩
    · refine ⟨?_, ?_, rfl, ?_, ?_⟩
      · rw [h]
        exact .cons (writesUpload_sample _) .nil
      · rw [h]
        rfl
      · rw [h]
        exact ⟨some ⟨"bb".toList, by decide, by decide, by decide⟩, rfl⟩
      · intro last hlast _
        rw [h] at hlast ⊢
        cases hlast
        exact ⟨rfl, rfl⟩
    · refine ⟨?_, ?_, rfl, ?_, ?_⟩
      · rw [h]
        exact .nil
      · rw [h]
        rfl
      · rw [h]
        exact ⟨none, rfl⟩
      · intro last hlast _
        rw [h] at hlast
        cases hlast

def sampleListUploads : ListMultipartUploadsRequest :=
  ⟨none, none, none, none, .default, HeaderMap.new⟩

/-- Two pages, of one upload each. -/
theorem listMultipartUploadsAll_complete_two_pages :
    ∃ pages,
      (SendState.sampleClient.listMultipartUploadsAll sampleOperationEnv
        sampleUploadsReader
      sampleUploadsService sampleListUploads 2).result = .ok pages ∧
      (pages.map ListMultipartUploadsOutput.uploads).flatten.map
        (fun entry => entry.uploadId.text) =
        ["a".toList, "bb".toList] := by
  have hprepared : ∃ call,
      SendState.sampleClient.listMultipartUploads sampleOperationEnv
        sampleListUploads = .ok call := ⟨_, rfl⟩
  rcases listMultipartUploadsAll_complete sampleUploadStore_served hprepared
      Nat.two_pos with
    ⟨pages, hresult, huploads, -⟩ | ⟨-, hbound⟩
  · refine ⟨pages, hresult, ?_⟩
    rw [huploads]
    rfl
  · exact absurd hbound (lt_irrefl 2)

end Uploads

end S3Wire
