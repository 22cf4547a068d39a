/-
# `S3Wire.Client.Operation.Browse` — listing what a service holds

The listings of `src/client/object/listing.rs` and
`src/client/multipart/listing.rs` against services that hold something to list.
A service here is not translated from anything.  It keeps its lines in the order
of their names, answers a query with the next lines after the name that the
query goes on from, and cuts its pages where it likes.  It reads the query that
the client wrote, and writes a document that the XML library reads.

A service of this kind goes through a list (`Lib.Pager.Goes`), so a listing of
all pages is what the service holds: every line once, in order, under its own
key, or else the page bound was too small.  For objects this rests on both ends
of the URL encoding: the client asks for it, the service encodes because it was
asked, and the client decodes once.

    request ──query──▶ cursor, prefix, delimiter
                          │ next lines after the cursor
    output  ◀──XML──── document, token of the last line
-/
import S3Wire.Client.Operation.Resume
import S3Wire.Lib.Cursor
import S3Wire.Protocol.Record
import S3Wire.Protocol.UrlField

namespace S3Wire

/-! ## What a service reads in a query -/

/-- The parameters of one name. -/
def namedParams (name : Str) (query : List QueryParam) : List QueryParam :=
  query.filter fun p => p.name = name

theorem namedParams_append (name : Str) (a b : List QueryParam) :
    namedParams name (a ++ b) = namedParams name a ++ namedParams name b := by
  rw [namedParams, List.filter_append]
  rfl

theorem namedParams_cons {name other : Str} (h : other ≠ name) (value : Str)
    (rest : List QueryParam) :
    namedParams name (⟨other, value⟩ :: rest) = namedParams name rest :=
  List.filter_cons_of_neg (by simpa using h)

theorem namedParams_optional (name : Str) (value : Option Str) :
    namedParams name (optionalQuery name value) = optionalQuery name value := by
  cases value with
  | none => rfl
  | some value => exact List.filter_cons_of_pos (decide_eq_true rfl)

theorem namedParams_other {name other : Str} (h : other ≠ name)
    (value : Option Str) :
    namedParams name (optionalQuery other value) = [] := by
  cases value with
  | none => rfl
  | some value => exact namedParams_cons h value []

/-- The value of a parameter. -/
def param (name : Str) (query : List QueryParam) : Option Str :=
  (namedParams name query).head?.map QueryParam.value

/-- The parameters of the fields that are there. -/
def fieldsQuery (fields : List (Str × Option Str)) : List QueryParam :=
  fields.flatMap fun field => optionalQuery field.1 field.2

section Query

variable {fields : List (Str × Option Str)} {name : Str}

theorem namedParams_fieldsQuery_of_not_mem (h : name ∉ fields.map Prod.fst) :
    namedParams name (fieldsQuery fields) = [] := by
  induction fields with
  | nil => rfl
  | cons field fields ih =>
      rw [List.map_cons, List.mem_cons, not_or] at h
      rw [fieldsQuery, List.flatMap_cons, namedParams_append,
        namedParams_other (Ne.symm h.1), List.nil_append]
      exact ih h.2

/-- Where no two fields share a name, the parameters of a name are its field. -/
theorem namedParams_fieldsQuery {value : Option Str}
    (hdistinct : (fields.map Prod.fst).Nodup) (h : (name, value) ∈ fields) :
    namedParams name (fieldsQuery fields) = optionalQuery name value := by
  induction fields with
  | nil => cases h
  | cons field fields ih =>
      obtain ⟨other, value'⟩ := field
      rw [List.map_cons, List.nodup_cons] at hdistinct
      rw [fieldsQuery, List.flatMap_cons, namedParams_append]
      rcases List.mem_cons.mp h with heq | hmem
      · cases heq
        have hrest : namedParams name (fieldsQuery fields) = [] :=
          namedParams_fieldsQuery_of_not_mem hdistinct.1
        rw [namedParams_optional]
        show optionalQuery name value ++ namedParams name (fieldsQuery fields) =
          _
        rw [hrest, List.append_nil]
      · have hother : other ≠ name :=
          fun heq => hdistinct.1 (List.mem_map.mpr ⟨_, hmem, heq.symm⟩)
        rw [namedParams_other hother, List.nil_append]
        exact ih hdistinct.2 hmem

/-- A parameter is its field, in whatever order the query comes. -/
theorem param_of_perm {value : Option Str} {query : List QueryParam}
    (hdistinct : (fields.map Prod.fst).Nodup)
    (hperm : query.Perm (fieldsQuery fields)) (h : (name, value) ∈ fields) :
    param name query = value := by
  have hnamed : (namedParams name query).Perm (optionalQuery name value) := by
    rw [← namedParams_fieldsQuery hdistinct h]
    exact hperm.filter _
  rw [param]
  cases value with
  | none =>
      rw [List.Perm.eq_nil hnamed]
      rfl
  | some value =>
      rw [List.perm_singleton.mp hnamed]
      rfl

theorem param_of_not_mem {query : List QueryParam}
    (hperm : query.Perm (fieldsQuery fields)) (h : name ∉ fields.map Prod.fst) :
    param name query = none := by
  have hnamed : (namedParams name query).Perm [] := by
    rw [← namedParams_fieldsQuery_of_not_mem h]
    exact hperm.filter _
  rw [param, List.Perm.eq_nil hnamed]
  rfl

theorem param_fieldsQuery {value : Option Str}
    (hdistinct : (fields.map Prod.fst).Nodup) (h : (name, value) ∈ fields) :
    param name (fieldsQuery fields) = value :=
  param_of_perm hdistinct (List.Perm.refl _) h

end Query

/-! ## Documents that are read -/

section Documents

variable {xml : XmlReader} {body : Bytes} {maximum : Nat} {text : Str}

theorem expectRoot_of_text {expected : Str}
    (htext : boundedText body maximum = .ok text)
    (hroot : xml.rootName text = .ok expected) :
    expectRoot xml body maximum expected = .ok () := by
  rw [expectRoot, htext]
  dsimp only
  rw [hroot]
  exact if_pos rfl

theorem parseBounded_of_text {α : Type} {deserialize : Str → Option α}
    {document : α} (htext : boundedText body maximum = .ok text)
    (hread : deserialize text = some document) :
    parseBounded deserialize body maximum = .ok document := by
  rw [parseBounded, htext]
  dsimp only
  rw [hread]

end Documents

/-! ## Objects -/

section Objects

/-- A line of a listing of objects: an object, or the keys that go on from one
prefix to the delimiter. -/
inductive BucketLine where
  | object (object : ListedObject)
  | group (commonPrefix : Str)

namespace BucketLine

/-- What a line is sorted and listed by. -/
def text : BucketLine → Str
  | .object listed => listed.key.text
  | .group commonPrefix => commonPrefix

def object? : BucketLine → Option ListedObject
  | .object listed => some listed
  | .group _ => none

def group? : BucketLine → Option Str
  | .object _ => none
  | .group commonPrefix => some commonPrefix

end BucketLine

/-- A bucket, and how its service lists it. -/
structure Bucket (κ : Type) [LinearOrder κ] where
  /-- The lines for a prefix and a delimiter. -/
  lines : Option Str → Option Str → List BucketLine
  rank : Str → κ
  ascending : ∀ keyPrefix delimiter,
    Lib.KeySorted (fun line => rank line.text) (lines keyPrefix delimiter)
  token : Str → Str
  readToken : Str → Option Str
  readToken_token : ∀ text, readToken (token text) = some text
  /-- How many lines it puts on a page. -/
  batch : Nat → Nat
  batch_pos : ∀ i, 0 < batch i

/-- A document says of an object what there is to say, and encodes its key. -/
structure WritesObject (xml : XmlReader) (object : ListedObject)
    (document : ObjectDocument) : Prop where
  key : ∃ encodeSlash, document.key = awsUriEncode object.key.text encodeSlash
  lastModified :
    document.lastModified.mapM (parseTime xml "Contents.LastModified") =
      .ok object.lastModified
  eTag : document.eTag = object.eTag
  size : document.size = object.size
  storageClass : document.storageClass = object.storageClass
  owner : document.owner = object.owner
  checksumAlgorithms : document.checksumAlgorithms = object.checksumAlgorithms
  checksumType : document.checksumType.map ChecksumType.parse =
    object.checksumType

/-- A common prefix is written encoded, with or without its slashes. -/
def WritesGroup (commonPrefix field : Str) : Prop :=
  ∃ encodeSlash, field = awsUriEncode commonPrefix encodeSlash

namespace Bucket

variable {κ : Type} [LinearOrder κ] (bucket : Bucket κ)

/-- Where a listing goes on: a token says it alone. -/
def cursor (token startAfter : Option Str) : Option κ :=
  match token with
  | some token => (bucket.readToken token).map bucket.rank
  | none => startAfter.map bucket.rank

/-- The lines of a listing after what its request says was listed. -/
def left (keyPrefix delimiter token startAfter : Option Str) :
    List BucketLine :=
  Lib.after (fun line => bucket.rank line.text) (bucket.cursor token startAfter)
    (bucket.lines keyPrefix delimiter)

/-- What is left for a query. -/
def leftFor (query : List QueryParam) : List BucketLine :=
  bucket.left (param "prefix" query) (param "delimiter" query)
    (param "continuation-token" query)
    (param "start-after" query)

/-- The document of the page `i`, with its texts encoded. -/
structure Writes (xml : XmlReader) (i : Nat) (query : List QueryParam)
    (document : ListBucketDocument) : Prop where
  encodingType : document.encodingType = some "url".toList
  contents : List.Forall₂ (WritesObject xml)
    (((bucket.leftFor query).take (bucket.batch i)).filterMap
      BucketLine.object?) document.contents
  commonPrefixes : List.Forall₂ WritesGroup
    (((bucket.leftFor query).take (bucket.batch i)).filterMap BucketLine.group?)
      document.commonPrefixes
  isTruncated : document.isTruncated =
    decide (bucket.batch i < (bucket.leftFor query).length)
  next : ∀ last, ((bucket.leftFor query).take (bucket.batch i)).getLast? =
    some last →
    document.isTruncated = true →
      document.nextContinuationToken = some (bucket.token last.text)

/-- The service answers a query for a listing with encoded texts by the
documents of the bucket, which the XML library reads and which fit the bound of
the client. -/
def ServedBy (client : S3Client) (xml : XmlReader) (service : Nat → Service) :
    Prop :=
  ∀ i call, param "list-type" call.query = some "2".toList →
    param "encoding-type" call.query = some "url".toList →
      ∃ headers body ids document,
    service i call = .ok (headers, body) ∧ parseRequestIds headers = .ok ids ∧
    expectRoot xml body client.config.maxXmlResponseSize "ListBucketResult" =
      .ok () ∧
    parseBounded xml.listBucket body client.config.maxXmlResponseSize =
      .ok document ∧
    bucket.Writes xml i call.query document

end Bucket

/-- A page holds a batch of lines. -/
def HoldsLines (page : ListObjectsV2Output) (lines : List BucketLine) : Prop :=
  page.objects = lines.filterMap BucketLine.object? ∧
    page.commonPrefixes = lines.filterMap BucketLine.group?

/-- The parameters of a request for a page of objects. -/
def objectsFields (request : ListObjectsV2Request) : List (Str × Option Str) :=
  [("list-type", some "2".toList),
    ("max-keys", some (decimal request.maxKeys.get)),
    ("encoding-type", some "url".toList), ("prefix", request.keyPrefix),
      ("delimiter", request.delimiter),
    ("continuation-token", request.continuationToken),
      ("start-after", request.startAfter.map ObjectKey.text),
    ("fetch-owner", if request.fetchOwner then some "true".toList else none)]

theorem objectsFields_distinct (request : ListObjectsV2Request) :
    ((objectsFields request).map Prod.fst).Nodup := by
  show (["list-type", "max-keys", "encoding-type", "prefix", "delimiter",
    "continuation-token", "start-after",
    "fetch-owner"] : List Str).Nodup
  decide

theorem listObjectsV2Query_eq (request : ListObjectsV2Request) :
    listObjectsV2Query request = fieldsQuery (objectsFields request) := by
  have howner :
      (if request.fetchOwner then [⟨"fetch-owner", "true"⟩]
        else [] : List QueryParam) =
      optionalQuery "fetch-owner"
          (if request.fetchOwner then some "true".toList else none) := by
    split
    · rfl
    · rfl
  have hpresent : ∀ (name value : Str) (rest : List QueryParam),
      (⟨name, value⟩ :: rest : List QueryParam) =
        optionalQuery name (some value) ++ rest := fun _ _ _ => rfl
  rw [listObjectsV2Query, howner, hpresent, hpresent, hpresent]
  simp only [fieldsQuery, objectsFields, List.flatMap_cons, List.flatMap_nil,
    List.append_assoc, List.append_nil]

theorem listedObject_of_writes {xml : XmlReader} {object : ListedObject}
    {document : ObjectDocument} (h : WritesObject xml object document) :
    listedObject xml document = .ok object := by
  obtain ⟨⟨encodeSlash, hkey⟩, hmodified, htag, hsize, hclass, howner,
    halgorithms, htype⟩ := h
  have hparse : parseKey "Contents.Key" object.key.text = .ok object.key := by
    rw [parseKey, ObjectKey.new, dif_neg object.key.nonempty,
      dif_pos object.key.bounded]
  rw [listedObject, hkey, decodeUrlField_encode, htag, hsize, hclass, howner,
    halgorithms, htype]
  show (parseKey "Contents.Key" object.key.text >>= _) = _
  rw [hparse]
  show (document.lastModified.mapM (parseTime xml "Contents.LastModified") >>=
    _) = _
  rw [hmodified]
  rfl

variable {κ : Type} [LinearOrder κ] {bucket : Bucket κ} {client : S3Client}
  {env : OperationEnv} {xml : XmlReader}
  {service : Nat → Service} {request : ListObjectsV2Request}

theorem leftFor_listObjectsV2Query (bucket : Bucket κ)
    (request : ListObjectsV2Request) :
    bucket.leftFor (listObjectsV2Query request) =
      bucket.left request.keyPrefix request.delimiter request.continuationToken
        (request.startAfter.map ObjectKey.text) := by
  have hfield : ∀ {name : Str} {value : Option Str},
      (name, value) ∈ objectsFields request →
      param name (listObjectsV2Query request) = value := by
    intro name value h
    rw [listObjectsV2Query_eq]
    exact param_fieldsQuery (objectsFields_distinct request) h
  rw [Bucket.leftFor,
    @hfield "prefix" request.keyPrefix (by simp [objectsFields]),
    @hfield "delimiter" request.delimiter (by simp [objectsFields]),
    @hfield "continuation-token" request.continuationToken
      (by simp [objectsFields]),
    @hfield "start-after" (request.startAfter.map ObjectKey.text)
      (by simp [objectsFields])]

theorem listObjectsV2Page_of_served (h : bucket.ServedBy client xml service)
    (hprepared : ∃ call, client.listObjectsV2 env request = .ok call)
    (i : Nat) :
    ∃ page, client.listObjectsV2Page env xml (service i) request = .ok page ∧
      HoldsLines page
        ((bucket.leftFor (listObjectsV2Query request)).take (bucket.batch i)) ∧
      page.isTruncated =
        decide (bucket.batch i <
          (bucket.leftFor (listObjectsV2Query request)).length) ∧
      ∀ last, ((bucket.leftFor (listObjectsV2Query request)).take
        (bucket.batch i)).getLast? = some last →
        page.isTruncated = true →
        page.nextContinuationToken = some (bucket.token last.text) := by
  obtain ⟨call, hcall⟩ := hprepared
  have hquery : call.query = listObjectsV2Query request := by
    obtain ⟨target, -, hcall⟩ := Lib.bind_ok hcall
    obtain ⟨headers, -, hcall⟩ := Lib.bind_ok hcall
    cases hcall
    rfl
  have hfield : ∀ {name : Str} {value : Option Str},
      (name, value) ∈ objectsFields request →
      param name call.query = value := by
    intro name value h
    rw [hquery, listObjectsV2Query_eq]
    exact param_fieldsQuery (objectsFields_distinct request) h
  obtain ⟨headers, body, ids, document, hservice, hids, hroot, hdocument,
      hwrites⟩ :=
    h i call (hfield (by simp [objectsFields]))
      (hfield (by simp [objectsFields]))
  rw [← hquery]
  have hobjects : document.contents.mapM (listedObject xml) =
      .ok (((bucket.leftFor call.query).take (bucket.batch i)).filterMap
          BucketLine.object?) := by
    refine Lib.mapM_of_forall₂ hwrites.contents.flip ?_
    exact fun document object hwritten => listedObject_of_writes hwritten
  have hgroups :
      document.commonPrefixes.mapM
        (decodeUrlField xml "CommonPrefixes.Prefix") =
      .ok (((bucket.leftFor call.query).take (bucket.batch i)).filterMap
          BucketLine.group?) := by
    refine Lib.mapM_of_forall₂ hwrites.commonPrefixes.flip ?_
    rintro field commonPrefix ⟨encodeSlash, rfl⟩
    exact decodeUrlField_encode commonPrefix encodeSlash
  have hparse : parseListObjectsV2 xml body client.config.maxXmlResponseSize =
      .ok {
      objects :=
        ((bucket.leftFor call.query).take (bucket.batch i)).filterMap
          BucketLine.object?
      commonPrefixes :=
        ((bucket.leftFor call.query).take (bucket.batch i)).filterMap
          BucketLine.group?
      isTruncated := document.isTruncated
      nextContinuationToken := document.nextContinuationToken
      keyCount := document.keyCount
      requestIds := ⟨none, none⟩ } := by
    rw [parseListObjectsV2, hroot]
    show (parseBounded xml.listBucket body client.config.maxXmlResponseSize >>=
      _) = _
    rw [hdocument]
    show (if document.encodingType ≠ some "url".toList then _ else _) = _
    rw [if_neg (not_not.mpr hwrites.encodingType), hobjects]
    show (document.commonPrefixes.mapM
      (decodeUrlField xml "CommonPrefixes.Prefix") >>= _) = _
    rw [hgroups]
    rfl
  refine ⟨ListObjectsV2Output.mk _ _ _ _ document.keyCount ids, ?_, ⟨rfl, rfl⟩,
    hwrites.isTruncated, hwrites.next⟩
  · rw [S3Client.listObjectsV2Page, hcall]
    show (service i call >>= _) = _
    rw [hservice]
    show (orProtocolError
      (parseListObjectsV2 xml body client.config.maxXmlResponseSize) >>= _) = _
    rw [hparse]
    show (parseRequestIds headers >>= _) = _
    rw [hids]
    rfl

theorem listObjectsV2_prepared {other : ListObjectsV2Request}
    (hheaders : other.headers = request.headers)
    (h : ∃ call, client.listObjectsV2 env request = .ok call) :
    ∃ call, client.listObjectsV2 env other = .ok call := by
  obtain ⟨call, h⟩ := h
  obtain ⟨target, htarget, h⟩ := Lib.bind_ok h
  obtain ⟨headers, hrequest, h⟩ := Lib.bind_ok h
  refine ⟨SignedSend.mk "GET" target
    (listObjectsV2Query other) headers none env.deadline .streaming, ?_⟩
  rw [S3Client.listObjectsV2, htarget]
  show (requestHeaders other.headers >>= _) = _
  rw [hheaders, hrequest]
  rfl

theorem goes_listObjectsV2 (h : bucket.ServedBy client xml service)
    (hprepared : ∃ call, client.listObjectsV2 env request = .ok call) :
    objectsPager.Goes (fun i => client.listObjectsV2Page env xml (service i))
      (fun other => Lib.after (fun line => bucket.rank line.text)
        (bucket.cursor other.continuationToken
          (other.startAfter.map ObjectKey.text))
        (bucket.lines request.keyPrefix request.delimiter))
      HoldsLines
      (fun other => other.headers = request.headers ∧
        other.keyPrefix = request.keyPrefix ∧
        other.delimiter = request.delimiter) := by
  refine Lib.Pager.Goes.of_cut
    (bucket.ascending request.keyPrefix request.delimiter) bucket.batch_pos ?_ ?_
  · rintro i other ⟨hheaders, hprefix, hdelimiter⟩
    obtain ⟨page, hpage, hholds, htruncated, hnext⟩ :=
      listObjectsV2Page_of_served h
        (listObjectsV2_prepared hheaders hprepared) i
    rw [leftFor_listObjectsV2Query, Bucket.left, hprefix, hdelimiter]
      at hholds htruncated hnext
    refine ⟨page, hpage, hholds, htruncated, ?_⟩
    intro last _ hlast hmore
    refine ⟨bucket.token last.text, hnext last hlast hmore, rfl,
      ⟨hheaders, hprefix, hdelimiter⟩, ?_⟩
    show (bucket.readToken (bucket.token last.text)).map bucket.rank = _
    rw [bucket.readToken_token]
    rfl
  · intro first second _ _ token hfirst hsecond
    have hfirst : first.continuationToken = some token := hfirst
    have hsecond : second.continuationToken = some token := hsecond
    rw [hfirst, hsecond]
    rfl

/-- **A listing of a bucket is the bucket.**  From the start, from a key or from
a token on, with or without a delimiter, `list_objects_v2_all` returns every
line that is left, once and in order, under its own key, whatever characters
that has and however the service cuts its pages; or it was allowed fewer pages
than there are lines. -/
theorem listObjectsV2All_complete (h : bucket.ServedBy client xml service)
    (hprepared : ∃ call, client.listObjectsV2 env request = .ok call)
    {maximumPages : Nat} (hpos : 0 < maximumPages) :
    let left :=
  bucket.left request.keyPrefix request.delimiter request.continuationToken
      (request.startAfter.map ObjectKey.text)
    (∃ pages,
      (client.listObjectsV2All env xml service request maximumPages).result =
        .ok pages ∧
      (pages.map ListObjectsV2Output.objects).flatten =
        left.filterMap BucketLine.object? ∧
      (pages.map ListObjectsV2Output.commonPrefixes).flatten =
        left.filterMap BucketLine.group?) ∨
    ((client.listObjectsV2All env xml service request maximumPages).result =
      .error objectsPager.limit ∧
      maximumPages < left.length) := by
  intro left
  rw [S3Client.listObjectsV2All, listAll, if_neg hpos.ne']
  rcases Lib.Pager.follow_goes (goes_listObjectsV2 h hprepared) maximumPages
      ⟨rfl, rfl, rfl⟩ with
    ⟨pages, hresult, hall⟩ | ⟨hresult, hbound⟩
  · exact Or.inl ⟨pages, hresult, hall.flatten_map _ _ fun _ _ hpage => hpage.1,
      hall.flatten_map _ _ fun _ _ hpage => hpage.2⟩
  · exact Or.inr ⟨hresult, hbound.resolve_left hpos.ne'⟩

/-! ### A bucket of two objects -/

def sampleObject (key : ObjectKey) : ListedObject :=
  ⟨key, none, none, 1, none, none, [], none⟩

/-- `é` is encoded. -/
def sampleLines : List BucketLine :=
  [.object (sampleObject ⟨"a".toList, by decide, by decide⟩),
    .object (sampleObject ⟨"é/".toList, by decide, by decide⟩)]

theorem sampleLines_ascending :
    Lib.KeySorted (fun line => line.text.length) sampleLines := by
  rw [Lib.KeySorted, sampleLines, List.pairwise_pair]
  decide

/-- One line on a page. -/
def sampleBucket : Bucket Nat where
  lines _ _ := sampleLines
  rank := List.length
  ascending _ _ := sampleLines_ascending
  token text := text
  readToken token := some token
  readToken_token _ := rfl
  batch _ := 1
  batch_pos _ := Nat.one_pos

/-- The page for what is left. -/
def sampleBucketPage (left : List BucketLine) : ListBucketDocument where
  encodingType := some "url"
  contents := ((left.take 1).filterMap BucketLine.object?).map fun object =>
    ⟨awsUriEncode object.key.text true, none, none, 1, none, none, [], none⟩
  commonPrefixes := []
  isTruncated := decide (1 < left.length)
  nextContinuationToken := (left.take 1).getLast?.map BucketLine.text
  keyCount := none

def sampleBucketText (left : List BucketLine) : Str :=
  "<ListBucketResult>".toList ++ decimal left.length ++
    "</ListBucketResult>".toList

def sampleBucketReader : XmlReader where
  rootName _ := .ok "ListBucketResult"
  listBucket text :=
    if text = sampleBucketText sampleLines then
      some (sampleBucketPage sampleLines)
    else if text = sampleBucketText (sampleLines.drop 1) then
      some (sampleBucketPage (sampleLines.drop 1))
    else some (sampleBucketPage [])
  listUploads _ := none
  listParts _ := none
  parseRfc3339 _ := .error "not a date"
  utf8Error _ := "invalid utf-8"

def sampleBucketService (_ : Nat) : Service := fun call =>
  .ok (HeaderMap.new,
    Lib.utf8 (sampleBucketText (sampleBucket.leftFor call.query)))

theorem sampleBucket_left (query : List QueryParam) :
    sampleBucket.leftFor query = sampleLines ∨
    sampleBucket.leftFor query = sampleLines.drop 1 ∨
    sampleBucket.leftFor query = [] := by
  rw [Bucket.leftFor, Bucket.left]
  cases sampleBucket.cursor (param "continuation-token" query)
      (param "start-after" query) with
  | none => exact Or.inl rfl
  | some k =>
      match k with
      | 0 => exact Or.inl rfl
      | 1 => exact Or.inr (Or.inl rfl)
      | k + 2 => exact Or.inr (Or.inr rfl)

theorem boundedText_sample {text : Str}
    (hsize : (Lib.utf8 text).length ≤ SendState.sampleConfig.maxXmlResponseSize)
    (hplain :
    (asciiContainsIgnoreCase (Lib.utf8 text) (Lib.utf8 "<!DOCTYPE".toList) ||
      asciiContainsIgnoreCase (Lib.utf8 text) (Lib.utf8 "<!ENTITY".toList)) =
        false) :
    boundedText (Lib.utf8 text) SendState.sampleConfig.maxXmlResponseSize =
      .ok text := by
  rw [boundedText, if_neg (not_lt.mpr hsize), hplain, Lib.utf8Decode_utf8]
  rfl

theorem sampleBucket_read {left : List BucketLine}
    (hleft : left = sampleLines ∨ left = sampleLines.drop 1 ∨ left = []) :
    boundedText
      (Lib.utf8 (sampleBucketText left))
        SendState.sampleConfig.maxXmlResponseSize =
        .ok (sampleBucketText left) ∧
      sampleBucketReader.listBucket (sampleBucketText left) =
        some (sampleBucketPage left) := by
  rcases hleft with rfl | rfl | rfl
  · refine ⟨boundedText_sample (by decide +kernel) (by decide +kernel), ?_⟩
    rw [sampleBucketReader]
    dsimp only
    rw [if_pos rfl]
  · refine ⟨boundedText_sample (by decide +kernel) (by decide +kernel), ?_⟩
    rw [sampleBucketReader]
    dsimp only
    rw [if_neg (by decide +kernel), if_pos rfl]
  · refine ⟨boundedText_sample (by decide +kernel) (by decide +kernel), ?_⟩
    rw [sampleBucketReader]
    dsimp only
    rw [if_neg (by decide +kernel), if_neg (by decide +kernel)]

theorem writesObject_sample (key : ObjectKey) :
    WritesObject sampleBucketReader (sampleObject key)
    ⟨awsUriEncode key.text true, none, none, 1, none, none, [], none⟩ :=
  ⟨⟨true, rfl⟩, rfl, rfl, rfl, rfl, rfl, rfl, rfl⟩

theorem sampleBucket_served :
    sampleBucket.ServedBy SendState.sampleClient sampleBucketReader
      sampleBucketService := by
  intro i call _ _
  have hleft := sampleBucket_left call.query
  obtain ⟨htext, hread⟩ := sampleBucket_read hleft
  refine ⟨HeaderMap.new, _, ⟨none, none⟩,
    sampleBucketPage (sampleBucket.leftFor call.query), rfl, rfl, ?_, ?_, ?_⟩
  · exact expectRoot_of_text htext rfl
  · exact parseBounded_of_text htext hread
  · refine ⟨rfl, ?_, ?_, rfl, ?_⟩
    · rcases hleft with h | h | h
      · rw [h]
        exact .cons (writesObject_sample _) .nil
      · rw [h]
        exact .cons (writesObject_sample _) .nil
      · rw [h]
        exact .nil
    · rcases hleft with h | h | h <;>
        · rw [h]
          exact .nil
    · intro last hlast _
      exact congrArg (Option.map BucketLine.text) hlast

def sampleListObjects : ListObjectsV2Request :=
  ⟨none, none, none, none, .default, false, HeaderMap.new⟩

/-- Two pages, of one object each. -/
theorem listObjectsV2All_complete_two_pages :
    ∃ pages,
      (SendState.sampleClient.listObjectsV2All sampleOperationEnv
        sampleBucketReader sampleBucketService
      sampleListObjects 2).result = .ok pages ∧
      (pages.map ListObjectsV2Output.objects).flatten.map
        (fun object => object.key.text) =
        ["a".toList, "é/".toList] := by
  have hprepared :
      ∃ call, SendState.sampleClient.listObjectsV2 sampleOperationEnv
          sampleListObjects = .ok call :=
    ⟨_, rfl⟩
  rcases listObjectsV2All_complete sampleBucket_served hprepared Nat.two_pos
      with
    ⟨pages, hresult, hobjects, -⟩ | ⟨-, hbound⟩
  · refine ⟨pages, hresult, ?_⟩
    rw [hobjects]
    rfl
  · exact absurd hbound (lt_irrefl 2)

end Objects

end S3Wire
