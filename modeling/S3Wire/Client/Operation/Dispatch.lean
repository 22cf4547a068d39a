/-
# `S3Wire.Client.Operation.Dispatch` — a service does what the operation says

The other end of the operations of `src/client/object/` and
`src/client/multipart/`.  A service at the endpoint has only the request: from
its host and its path it reads a bucket and perhaps a key, from its query the
parameters, and from method, key and parameters which of fourteen actions is
asked for (`Action`).  It decodes everything once.

In every run of every operation, in whatever region and at whatever attempt, a
service that verifies admits each request by the time of its own attempt
(`requests_admitted`) and reads it as the action of that operation, with
everything that its request line and its `x-amz-copy-source` say: bucket, key,
version, upload, part, source, and what a listing is limited to
(`requests_dispatched`).  No text in them, however it is written, turns one
action into another.  One thing does: a put or a part to which the caller adds
an `x-amz-copy-source` header of their own is a copy to the service.
-/
import S3Wire.Client.Operation.BrowseUploads
import S3Wire.Client.Operation.Conclude
import S3Wire.Client.Operation.CopySource
import S3Wire.Client.Operation.Union
import S3Wire.Client.Request.Admission
import S3Wire.Client.Request.Elapsed

namespace S3Wire

/-! ## What a service reads -/

/-- Bucket, key and version of what is copied. -/
abbrev Source := Str × Str × Option Str

/-- What a page of objects is limited to. -/
structure ObjectListing where
  keyPrefix : Option Str
  delimiter : Option Str
  continuationToken : Option Str
  startAfter : Option Str
  maxKeys : Option Str
  encodingType : Option Str
  fetchOwner : Option Str
  deriving DecidableEq

/-- What a page of parts is limited to. -/
structure PartListing where
  maxParts : Option Str
  partNumberMarker : Option Str
  deriving DecidableEq

/-- What a page of uploads is limited to. -/
structure UploadListing where
  keyPrefix : Option Str
  delimiter : Option Str
  keyMarker : Option Str
  uploadIdMarker : Option Str
  maxUploads : Option Str
  deriving DecidableEq

/-- What a service is asked for, with all that the request line says of it. -/
inductive Action where
  | putObject (key : Str)
  | getObject (key : Str) (versionId : Option Str)
  | headObject (key : Str) (versionId : Option Str)
  | deleteObject (key : Str) (versionId : Option Str)
  | deleteObjects
  | copyObject (key : Str) (source : Source)
  | listObjectsV2 (listing : ObjectListing)
  | createMultipartUpload (key : Str)
  | uploadPart (key uploadId partNumber : Str)
  | uploadPartCopy (key uploadId partNumber : Str) (source : Source)
  | completeMultipartUpload (key uploadId : Str)
  | abortMultipartUpload (key uploadId : Str)
  | listParts (key uploadId : Str) (listing : PartListing)
  | listMultipartUploads (listing : UploadListing)
  deriving DecidableEq

/-- What a query says of a listing of objects. -/
def readObjectListing (query : List QueryParam) : ObjectListing where
  keyPrefix := param "prefix" query
  delimiter := param "delimiter" query
  continuationToken := param "continuation-token" query
  startAfter := param "start-after" query
  maxKeys := param "max-keys" query
  encodingType := param "encoding-type" query
  fetchOwner := param "fetch-owner" query

/-- What a query says of a listing of parts. -/
def readPartListing (query : List QueryParam) : PartListing where
  maxParts := param "max-parts" query
  partNumberMarker := param "part-number-marker" query

/-- What a query says of a listing of uploads. -/
def readUploadListing (query : List QueryParam) : UploadListing where
  keyPrefix := param "prefix" query
  delimiter := param "delimiter" query
  keyMarker := param "key-marker" query
  uploadIdMarker := param "upload-id-marker" query
  maxUploads := param "max-uploads" query

/-- An action on a bucket. -/
def bucketAction (method : Str) (query : List QueryParam) : Option Action :=
  if method = "GET".toList then
    if param "list-type" query = some "2".toList then
      some (.listObjectsV2 (readObjectListing query))
    else if (param "uploads" query).isSome then
      some (.listMultipartUploads (readUploadListing query))
    else none
  else if method = "POST".toList then
    if (param "delete" query).isSome then some .deleteObjects else none
  else none

/-- What is put under a key, or under a part of it. -/
def putAction (key : Str) (query : List QueryParam) (source : Option Str) :
    Option Action :=
  match param "uploadId" query, param "partNumber" query, source with
  | none, none, none => some (.putObject key)
  | none, none, some source => (readCopySource source).map (.copyObject key)
  | some uploadId, some partNumber, none =>
      some (.uploadPart key uploadId partNumber)
  | some uploadId, some partNumber, some source =>
      (readCopySource source).map (.uploadPartCopy key uploadId partNumber)
  | _, _, _ => none

/-- An action on an object. -/
def objectAction (method key : Str) (query : List QueryParam)
    (source : Option Str) :
    Option Action :=
  let versionId := param "versionId" query
  if method = "GET".toList then
    match param "uploadId" query with
    | some uploadId => some (.listParts key uploadId (readPartListing query))
    | none => some (.getObject key versionId)
  else if method = "HEAD".toList then some (.headObject key versionId)
  else if method = "DELETE".toList then
    match param "uploadId" query with
    | some uploadId => some (.abortMultipartUpload key uploadId)
    | none => some (.deleteObject key versionId)
  else if method = "POST".toList then
    match param "uploadId" query with
    | some uploadId => some (.completeMultipartUpload key uploadId)
    | none =>
        if (param "uploads" query).isSome then some (.createMultipartUpload key)
        else none
  else if method = "PUT".toList then putAction key query source
  else none

/-- Where a service answers: under a host of its own, at an endpoint. -/
structure Site where
  endpoint : Endpoint
  style : AddressingStyle
  host : Str

namespace Site

variable (site : Site)

/-- The bucket, and the key when there is one. -/
def readResource (authority path : Str) : Option (Str × Option Str) :=
  match site.style with
  | .path => do
      let rest ← path.dropPrefix? site.endpoint.basePath
      match Lib.splitOnce '/' rest with
      | some (bucket, key) =>
          return (← decodeText bucket, some (← decodeText key))
      | none => return (← decodeText rest, none)
  | .virtualHosted => do
      let bucket ← authority.dropSuffix? ('.' :: site.host)
      if path = site.endpoint.keptBase none .virtualHosted then
        return (bucket, none)
      else
        let rest ← path.dropPrefix? site.endpoint.basePath
        return (bucket, some (← decodeText rest))

/-- The bucket and the action that a request names. -/
def reads (request : HttpRequest) : Option (Str × Action) := do
  let uri := splitUri request.uri
  let (bucket, key) ← site.readResource (← request.headerText "host") uri.path
  let query ← wireQuery ((queryOf uri.pathAndQuery).getD [])
  let action ←
    match key with
    | none => bucketAction request.method query
    | some key =>
        objectAction request.method key query
          (request.headerText "x-amz-copy-source")
  return (bucket, action)

theorem reads_eq {request : HttpRequest} {authority bucket : Str}
    {key : Option Str} {query : List QueryParam}
    (hhost : request.headerText "host" = some authority)
    (hresource : site.readResource authority (splitUri request.uri).path =
      some (bucket, key))
    (hquery :
    wireQuery ((queryOf (splitUri request.uri).pathAndQuery).getD []) =
      some query) :
    site.reads request =
      (match key with
        | none => bucketAction request.method query
        | some key =>
            objectAction request.method key query
              (request.headerText "x-amz-copy-source")).map
          fun action => (bucket, action) := by
  rw [reads, hhost]
  dsimp only [Option.bind_eq_bind, Option.bind_some]
  rw [hresource, Option.bind_some]
  dsimp only
  rw [hquery, Option.bind_some]
  cases key with
  | none => exact (Option.map_eq_bind ..).symm
  | some key => exact (Option.map_eq_bind ..).symm

end Site

/-! ## The object is found -/

section Resource

variable {grammar : UriGrammar} {e : Endpoint} {bucket host : Str}
  {key : Option Str} {style : AddressingStyle}
  {url : EndpointUrl}

theorem decodeText_bucket (bucket : Str) :
    decodeText (encodePathComponent (Lib.utf8 bucket)) = some bucket :=
  decodeText_awsUriEncode bucket true

theorem decodeText_key (key : Str) :
    decodeText (encodeObjectKey (Lib.utf8 key)) = some key :=
  decodeText_awsUriEncode key false

theorem encodeObjectKey_ne_nil {text : Str} (h : text ≠ []) :
    encodeObjectKey (Lib.utf8 text) ≠ [] := by
  intro hnil
  have hempty :
    encodeObjectKey (Lib.utf8 text) = encodeObjectKey (Lib.utf8 []) := hnil
  exact h (encodeObjectKey_inj hempty)

/-- **The bucket and the key of a URL are read from it**, whatever is in
them. -/
theorem Site.readResource_url (hbase : e.basePath.getLast? = some '/')
    (hkey : key ≠ some [])
    (h : e.objectUrl grammar bucket key style = .ok url) :
    (Site.mk e style host).readResource
      (style.serviceAuthority bucket host) url.pathAndQuery =
      some (bucket, key) := by
  obtain ⟨authority, -, hparts⟩ := Endpoint.objectUrl_eq h
  obtain ⟨rfl, -⟩ := EndpointUrl.fromParts_eq hparts
  dsimp only
  rw [Endpoint.objectPath_eq hbase (bucket_ne_nil h), Site.readResource.eq_def]
  cases style with
  | path =>
      have hdrop :
          ∀ rest : Str, (e.keptBase key .path ++ rest).dropPrefix? e.basePath =
              some rest :=
        fun rest => Lib.dropPrefix?_eq_some.mpr rfl
      dsimp only
      rw [hdrop, objectSuffix.eq_def]
      cases key with
      | none =>
          dsimp only [Option.bind_eq_bind, Option.bind_some]
          rw [List.append_nil,
            Lib.splitOnce_eq_none (slash_not_mem_bucket bucket)]
          dsimp only
          rw [decodeText_bucket]
          rfl
      | some key =>
          dsimp only [Option.bind_eq_bind, Option.bind_some]
          rw [Lib.splitOnce_append _ (slash_not_mem_bucket bucket)]
          dsimp only
          rw [decodeText_bucket, decodeText_key]
          rfl
  | virtualHosted =>
      have hbucket :
          (AddressingStyle.virtualHosted.serviceAuthority bucket
            host).dropSuffix? ('.' :: host) =
          some bucket := Lib.dropSuffix?_eq_some.mpr rfl
      dsimp only
      rw [hbucket, objectSuffix.eq_def]
      dsimp only [Option.bind_eq_bind, Option.bind_some]
      cases key with
      | none =>
          rw [List.append_nil, if_pos rfl]
          rfl
      | some key =>
          have hwhole : e.keptBase (some key) .virtualHosted = e.basePath :=
            if_neg (fun h => nomatch h.2.1)
          have hlonger :
              ¬ e.basePath ++ encodeObjectKey (Lib.utf8 key) =
                  e.keptBase none .virtualHosted := by
            intro heq
            have hlength := length_keptBase_le e none .virtualHosted
            have hkey : encodeObjectKey (Lib.utf8 key) ≠ [] :=
              encodeObjectKey_ne_nil fun h => hkey (congrArg some h)
            have hpos := List.length_pos_iff.mpr hkey
            rw [← heq, List.length_append] at hlength
            omega
          have hdrop :
              (e.basePath ++ encodeObjectKey (Lib.utf8 key)).dropPrefix?
                e.basePath =
              some (encodeObjectKey (Lib.utf8 key)) :=
                Lib.dropPrefix?_eq_some.mpr rfl
          rw [hwhole, if_neg hlonger, hdrop]
          dsimp only [Option.bind_some]
          rw [decodeText_key]
          rfl

end Resource

/-! ## What an operation says -/

namespace PrimitiveOperation

/-- The parameters of an operation by name, those that are left out too. -/
def fields : PrimitiveOperation → List (Str × Option Str)
  | putObject _ => []
  | getObject request => [("versionId", request.versionId)]
  | headObject request => [("versionId", request.versionId)]
  | deleteObject request => [("versionId", request.versionId)]
  | deleteObjects _ => [("delete", some [])]
  | copyObject _ => []
  | listObjectsV2 request => objectsFields request
  | createMultipartUpload _ => [("uploads", some [])]
  | uploadPart request =>
      [("partNumber", some (decimal request.partNumber.get)),
        ("uploadId", some request.uploadId.text)]
  | uploadPartCopy request =>
      [("partNumber", some (decimal request.partNumber.get)),
        ("uploadId", some request.uploadId.text)]
  | completeMultipartUpload request =>
      [("uploadId", some request.uploadId.text)]
  | abortMultipartUpload request => [("uploadId", some request.uploadId.text)]
  | listParts request => partsFields request
  | listMultipartUploads request => uploadsFields request

/-- The action that the caller asks for. -/
def action : PrimitiveOperation → Action
  | putObject request => .putObject request.key.text
  | getObject request => .getObject request.key.text request.versionId
  | headObject request => .headObject request.key.text request.versionId
  | deleteObject request => .deleteObject request.key.text request.versionId
  | deleteObjects _ => .deleteObjects
  | copyObject request =>
      .copyObject request.destination.text
        (request.source.bucket, request.source.key.text,
          request.source.versionId)
  | listObjectsV2 request => .listObjectsV2 {
      keyPrefix := request.keyPrefix
      delimiter := request.delimiter
      continuationToken := request.continuationToken
      startAfter := request.startAfter.map ObjectKey.text
      maxKeys := some (decimal request.maxKeys.get)
      encodingType := some "url".toList
      fetchOwner := if request.fetchOwner then some "true".toList else none }
  | createMultipartUpload request => .createMultipartUpload request.key.text
  | uploadPart request =>
      .uploadPart request.key.text request.uploadId.text
        (decimal request.partNumber.get)
  | uploadPartCopy request =>
      .uploadPartCopy request.destination.text request.uploadId.text
        (decimal request.partNumber.get)
        (request.source.bucket, request.source.key.text,
          request.source.versionId)
  | completeMultipartUpload request =>
      .completeMultipartUpload request.key.text request.uploadId.text
  | abortMultipartUpload request =>
      .abortMultipartUpload request.key.text request.uploadId.text
  | listParts request => .listParts request.key.text request.uploadId.text {
      maxParts := some (decimal request.maxParts.get)
      partNumberMarker := request.partNumberMarker.map fun marker =>
        decimal marker.get }
  | listMultipartUploads request => .listMultipartUploads {
      keyPrefix := request.keyPrefix
      delimiter := request.delimiter
      keyMarker := request.keyMarker
      uploadIdMarker := request.uploadIdMarker.map UploadId.text
      maxUploads := some (decimal request.maxUploads.get) }

/-- What the request of the operation says of a source, when the operation
decides. -/
def sourceHeader : PrimitiveOperation → Option (Option Str)
  | putObject _ => some none
  | uploadPart _ => some none
  | copyObject request => some (some (copySourceHeader request.source))
  | uploadPartCopy request => some (some (copySourceHeader request.source))
  | _ => none

theorem fields_distinct (operation : PrimitiveOperation) :
    (operation.fields.map Prod.fst).Nodup := by
  have hpart : (["partNumber".toList, "uploadId".toList] : List Str).Nodup := by
    decide
  cases operation with
  | listObjectsV2 request => exact objectsFields_distinct request
  | listParts request => exact partsFields_distinct request
  | listMultipartUploads request => exact uploadsFields_distinct request
  | uploadPart request => exact hpart
  | uploadPartCopy request => exact hpart
  | putObject request => exact List.nodup_nil
  | copyObject request => exact List.nodup_nil
  | _ => exact List.nodup_singleton _

/-- What a service reads in these parameters and this source, where the
operation is sent. -/
def readAs (operation : PrimitiveOperation) (query : List QueryParam)
    (source : Option Str) : Option Action :=
  match operation.key.map ObjectKey.text with
  | none => bucketAction operation.method query
  | some key => objectAction operation.method key query source

section Read

variable {operation : PrimitiveOperation} {query : List QueryParam}
  {source : Option Str}

theorem readObjectListing_eq {request : ListObjectsV2Request}
    (h : query.Perm (fieldsQuery (objectsFields request))) :
    Action.listObjectsV2 (readObjectListing query) =
      (listObjectsV2 request).action := by
  have hread : ∀ {name : Str} {value : Option Str},
      (name, value) ∈ objectsFields request →
      param name query = value :=
    fun hmem => param_of_perm (objectsFields_distinct request) h hmem
  rw [readObjectListing,
    @hread "prefix" request.keyPrefix (by simp [objectsFields]),
    @hread "delimiter" request.delimiter (by simp [objectsFields]),
    @hread "continuation-token" request.continuationToken
      (by simp [objectsFields]),
    @hread "start-after" (request.startAfter.map ObjectKey.text)
      (by simp [objectsFields]),
    @hread "max-keys" (some (decimal request.maxKeys.get))
      (by simp [objectsFields]),
    @hread "encoding-type" (some "url".toList) (by simp [objectsFields]),
    @hread "fetch-owner"
      (if request.fetchOwner then some "true".toList else none)
      (by simp [objectsFields])]
  rfl

theorem readPartListing_eq {request : ListPartsRequest}
    (h : query.Perm (fieldsQuery (partsFields request))) :
    Action.listParts request.key.text request.uploadId.text
      (readPartListing query) =
      (listParts request).action := by
  have hread : ∀ {name : Str} {value : Option Str},
      (name, value) ∈ partsFields request →
      param name query = value :=
    fun hmem => param_of_perm (partsFields_distinct request) h hmem
  rw [readPartListing,
    @hread "max-parts" (some (decimal request.maxParts.get))
      (by simp [partsFields]),
    @hread "part-number-marker"
      (request.partNumberMarker.map fun marker => decimal marker.get)
      (by simp [partsFields])]
  rfl

theorem readUploadListing_eq {request : ListMultipartUploadsRequest}
    (h : query.Perm (fieldsQuery (uploadsFields request))) :
    Action.listMultipartUploads (readUploadListing query) =
      (listMultipartUploads request).action := by
  have hread : ∀ {name : Str} {value : Option Str},
      (name, value) ∈ uploadsFields request →
      param name query = value :=
    fun hmem => param_of_perm (uploadsFields_distinct request) h hmem
  rw [readUploadListing,
    @hread "prefix" request.keyPrefix (by simp [uploadsFields]),
    @hread "delimiter" request.delimiter (by simp [uploadsFields]),
    @hread "key-marker" request.keyMarker (by simp [uploadsFields]),
    @hread "upload-id-marker" (request.uploadIdMarker.map UploadId.text)
      (by simp [uploadsFields]),
    @hread "max-uploads" (some (decimal request.maxUploads.get))
      (by simp [uploadsFields])]
  rfl

/-- **The parameters of an operation, in any order, are read as its action.** -/
theorem read_action (hperm : query.Perm (fieldsQuery operation.fields))
    (hsource : ∀ header, operation.sourceHeader = some header →
      source = header) :
    operation.readAs query source = some operation.action := by
  have hread : ∀ {name : Str} {value : Option Str},
      (name, value) ∈ operation.fields → param name query = value :=
    fun hmem => param_of_perm operation.fields_distinct hperm hmem
  have hmissing : ∀ {name : Str}, name ∉ operation.fields.map Prod.fst →
      param name query = none :=
    fun hnot => param_of_not_mem hperm hnot
  cases operation with
  | putObject request =>
      have hupload := @hmissing "uploadId" List.not_mem_nil
      have hpart := @hmissing "partNumber" List.not_mem_nil
      obtain rfl := hsource none rfl
      show putAction request.key.text query none = _
      rw [putAction.eq_def, hupload, hpart]
      rfl
  | getObject request =>
      have hupload := @hmissing "uploadId" (by simp [fields])
      have hversion :=
        @hread "versionId" request.versionId (List.mem_singleton_self _)
      show (match param "uploadId" query with
        | some uploadId =>
            some (Action.listParts request.key.text uploadId
              (readPartListing query))
        | none =>
            some (.getObject request.key.text (param "versionId" query))) = _
      rw [hupload, hversion]
      rfl
  | headObject request =>
      have hversion :=
        @hread "versionId" request.versionId (List.mem_singleton_self _)
      show some (Action.headObject request.key.text (param "versionId" query)) =
        _
      rw [hversion]
      rfl
  | deleteObject request =>
      have hupload := @hmissing "uploadId" (by simp [fields])
      have hversion :=
        @hread "versionId" request.versionId (List.mem_singleton_self _)
      show (match param "uploadId" query with
        | some uploadId =>
            some (Action.abortMultipartUpload request.key.text uploadId)
        | none =>
            some (.deleteObject request.key.text (param "versionId" query))) = _
      rw [hupload, hversion]
      rfl
  | deleteObjects request =>
      have hdelete := @hread "delete" (some []) (List.mem_singleton_self _)
      show (if (param "delete" query).isSome then some Action.deleteObjects
        else none) = _
      rw [hdelete]
      rfl
  | copyObject request =>
      have hupload := @hmissing "uploadId" List.not_mem_nil
      have hpart := @hmissing "partNumber" List.not_mem_nil
      obtain rfl := hsource _ rfl
      show putAction request.destination.text query
        (some (copySourceHeader request.source)) = _
      rw [putAction.eq_def, hupload, hpart]
      dsimp only
      rw [readCopySource_header]
      rfl
  | listObjectsV2 request =>
      have htype := @hread "list-type" (some "2".toList) (List.mem_cons_self ..)
      show (if param "list-type" query = some "2".toList then
        some (Action.listObjectsV2 (readObjectListing query)) else _) = _
      rw [htype, if_pos rfl, readObjectListing_eq hperm]
  | createMultipartUpload request =>
      have hupload := @hmissing "uploadId" (by simp [fields])
      have huploads := @hread "uploads" (some []) (List.mem_singleton_self _)
      show (match param "uploadId" query with
        | some uploadId =>
            some (Action.completeMultipartUpload request.key.text uploadId)
        | none =>
            if (param "uploads" query).isSome then
              some (.createMultipartUpload request.key.text) else none) = _
      rw [hupload, huploads]
      rfl
  | uploadPart request =>
      have hupload :=
        @hread "uploadId" (some request.uploadId.text) (by simp [fields])
      have hpart :=
        @hread "partNumber" (some (decimal request.partNumber.get))
          (by simp [fields])
      obtain rfl := hsource none rfl
      show putAction request.key.text query none = _
      rw [putAction.eq_def, hupload, hpart]
      rfl
  | uploadPartCopy request =>
      have hupload :=
        @hread "uploadId" (some request.uploadId.text) (by simp [fields])
      have hpart :=
        @hread "partNumber" (some (decimal request.partNumber.get))
          (by simp [fields])
      obtain rfl := hsource _ rfl
      show putAction request.destination.text query
        (some (copySourceHeader request.source)) = _
      rw [putAction.eq_def, hupload, hpart]
      dsimp only
      rw [readCopySource_header]
      rfl
  | completeMultipartUpload request =>
      have hupload :=
        @hread "uploadId" (some request.uploadId.text)
          (List.mem_singleton_self _)
      show (match param "uploadId" query with
        | some uploadId =>
            some (Action.completeMultipartUpload request.key.text uploadId)
        | none => _) = _
      rw [hupload]
      rfl
  | abortMultipartUpload request =>
      have hupload :=
        @hread "uploadId" (some request.uploadId.text)
          (List.mem_singleton_self _)
      show (match param "uploadId" query with
        | some uploadId =>
            some (Action.abortMultipartUpload request.key.text uploadId)
        | none => _) = _
      rw [hupload]
      rfl
  | listParts request =>
      have hupload :=
        @hread "uploadId" (some request.uploadId.text)
          (by simp [fields, partsFields])
      show (match param "uploadId" query with
        | some uploadId =>
            some (Action.listParts request.key.text uploadId
              (readPartListing query))
        | none => _) = _
      rw [hupload]
      exact congrArg some (readPartListing_eq hperm)
  | listMultipartUploads request =>
      have htype := @hmissing "list-type" (by
        show "list-type".toList ∉
          (["uploads", "delimiter", "key-marker", "max-uploads", "prefix",
          "upload-id-marker"] : List Str)
        decide)
      have huploads := @hread "uploads" (some []) (List.mem_cons_self ..)
      show (if param "list-type" query = some "2".toList then
          some (Action.listObjectsV2 (readObjectListing query))
        else if (param "uploads" query).isSome then
          some (.listMultipartUploads (readUploadListing query)) else none) = _
      rw [htype, huploads]
      exact congrArg some (readUploadListing_eq hperm)

theorem source_of_put {key : Str} {action : Action}
    (h : putAction key query source = some action)
    (hput : action = .putObject key ∨ ∃ uploadId partNumber,
      action = .uploadPart key uploadId partNumber) :
    source = none := by
  rw [putAction.eq_def] at h
  split at h
  · rfl
  · obtain ⟨_, -, hcopy⟩ := Option.map_eq_some_iff.mp h
    rcases hput with rfl | ⟨_, _, rfl⟩ <;> cases hcopy
  · rfl
  · obtain ⟨_, -, hcopy⟩ := Option.map_eq_some_iff.mp h
    rcases hput with rfl | ⟨_, _, rfl⟩ <;> cases hcopy
  · cases h

/-- An operation without a source that is read as itself was sent without
one. -/
theorem source_of_readAs (hnone : operation.sourceHeader = some none)
    (h : operation.readAs query source = some operation.action) :
    source = none := by
  cases operation with
  | putObject request => exact source_of_put h (Or.inl rfl)
  | uploadPart request => exact source_of_put h (Or.inr ⟨_, _, rfl⟩)
  | _ => cases hnone

end Read

section Query

variable {operation : PrimitiveOperation} {query : List QueryParam}

theorem optionalQuery_eq (name : Str) (value : Option Str) :
    optionalQuery name value = fieldsQuery [(name, value)] :=
  (List.append_nil _).symm

/-- The query of an operation has its parameters, and those only. -/
theorem query_eq (h : operation.query = .ok query) :
    query = fieldsQuery operation.fields := by
  cases operation with
  | getObject request =>
      cases h
      exact optionalQuery_eq _ _
  | headObject request =>
      cases h
      exact optionalQuery_eq _ _
  | deleteObject request =>
      cases h
      exact optionalQuery_eq _ _
  | listObjectsV2 request =>
      cases h
      exact listObjectsV2Query_eq request
  | listParts request =>
      cases h
      exact listPartsQuery_eq request
  | listMultipartUploads request => exact listUploadsQuery_ok h
  | _ =>
      cases h
      rfl

end Query

/-! ## The source that is copied -/

section CopySource

variable {client : S3Client} {env : OperationEnv}
  {operation : PrimitiveOperation} {call : SignedSend}

/-- A put and a part are what they look like, when the caller has not made them
a copy. -/
def Meant (operation : PrimitiveOperation) : Prop :=
  operation.sourceHeader = some none →
    operation.headers.containsKey "x-amz-copy-source" = false

theorem key_of_mem_optionalEntry {name : Str} {value : Option Str}
    {header : Header} (h : header ∈ optionalEntry name value) :
    header.key = name.map Char.toLower := by
  obtain ⟨text, -, rfl⟩ := List.mem_map.mp h
  rfl

theorem key_of_mem_conditions {formatHttpDate : Int → Str}
    {conditions : Conditions} {header : Header}
    (h : header ∈ conditions.entries formatHttpDate []) :
    header.key ∈
      (["if-match", "if-none-match", "if-modified-since",
        "if-unmodified-since"] : List Str) := by
  simp only [Conditions.entries, List.mem_append, List.nil_append] at h
  rcases h with h | h | h | h <;> rw [key_of_mem_optionalEntry h] <;> decide

theorem key_of_mem_metadata {metadata : List (Str × Str)} {header : Header}
    (h : header ∈ metadataEntries metadata) :
    "x-amz-meta-".toList <+: header.key := by
  obtain ⟨entry, -, rfl⟩ := List.mem_map.mp h
  have hfolded :
    "x-amz-meta-".toList.map Char.toLower = "x-amz-meta-".toList := by decide
  show "x-amz-meta-".toList <+:
    ("x-amz-meta-".toList ++ entry.1).map Char.toLower
  rw [List.map_append, hfolded]
  exact List.prefix_append _ _

theorem key_of_mem_checksum {checksum : Checksum} {header : Header}
    (h : header ∈ checksum.entries) :
    header.key ∈
      (["x-amz-checksum-crc32", "x-amz-checksum-crc32c",
        "x-amz-checksum-crc64nvme",
      "x-amz-checksum-sha1", "x-amz-checksum-sha256"] : List Str) := by
  simp only [Checksum.entries, List.mem_append] at h
  rcases h with h | h | h | h | h <;> rw [key_of_mem_optionalEntry h] <;> decide

theorem key_of_mem_uploadChecksum {algorithm : Option ChecksumAlgorithm}
    {body : PreparedBody} {header : Header}
    (h : header ∈ uploadChecksumEntries algorithm body) :
    header.key ∈ (["x-amz-sdk-checksum-algorithm", "x-amz-checksum-sha256"] :
    List Str) := by
  rw [uploadChecksumEntries.eq_def] at h
  split at h
  · cases h
  · have hnames :
        (["x-amz-sdk-checksum-algorithm".toList,
          "x-amz-checksum-sha256".toList].map
        (List.map Char.toLower)) =
            ["x-amz-sdk-checksum-algorithm".toList,
                "x-amz-checksum-sha256".toList] := by
      decide
    rw [← hnames]
    exact List.mem_map_of_mem (List.mem_map_of_mem (f := Header.name) h)

theorem copySource_not_generated {body : Option PreparedBody}
    (h : operation.sourceHeader = some none) :
    "x-amz-copy-source".toList ∉
      (operation.generated env body).map Header.key := by
  intro hmem
  obtain ⟨header, hheader, hkey⟩ := List.mem_map.mp hmem
  cases operation with
  | putObject request =>
      simp only [generated, List.mem_append] at hheader
      rcases hheader with hheader | hheader | hheader | hheader
      · rw [key_of_mem_optionalEntry hheader] at hkey
        exact absurd hkey (by decide)
      · have hlisted := key_of_mem_conditions hheader
        rw [hkey] at hlisted
        exact absurd hlisted (by decide)
      · have hmeta := key_of_mem_metadata hheader
        rw [hkey] at hmeta
        exact absurd hmeta (by decide)
      · obtain ⟨prepared, -, hheader⟩ := List.mem_flatMap.mp hheader
        have hlisted := key_of_mem_uploadChecksum hheader
        rw [hkey] at hlisted
        exact absurd hlisted (by decide)
  | uploadPart request =>
      have hlisted := key_of_mem_checksum hheader
      rw [hkey] at hlisted
      exact absurd hlisted (by decide)
  | _ => cases h

/-- **What a request says of a source is what the operation says**, but for a
header of the caller. -/
theorem source_of_signed {crypto : Crypto} {signingEnv : SigningEnv}
    {input : SignedRequestInput} {wire : HttpRequest} {header : Option Str}
    (hprepare : operation.prepare client env = .ok call)
    (hinput : input.headers = call.headers)
    (hsigned : (signedRequest crypto signingEnv input).1 = .ok wire)
    (hsource : operation.sourceHeader = some header) :
    wire.headerText "x-amz-copy-source" = header ↔ operation.Meant := by
  have hunion := (prepare_built hprepare).extended.disjointUnion
  have hkept :
      wire.headers.getAll "x-amz-copy-source" =
          call.headers.getAll "x-amz-copy-source" := by
    rw [← hinput]
    exact signedHeaders_getAll (by decide) (signedRequest_ok hsigned).1
  cases header with
  | some text =>
      have hmeant : operation.Meant := by
        intro hnone
        rw [hsource] at hnone
        cases hnone
      refine iff_of_true ?_ hmeant
      have hgenerated :
          Header.mk "x-amz-copy-source" text ∈
              operation.generated env call.body := by
        cases operation with
        | copyObject request =>
            cases hsource
            exact List.mem_append_left _ (List.mem_singleton_self _)
        | uploadPartCopy request =>
            cases hsource
            exact List.mem_append_left _ (List.mem_singleton_self _)
        | _ => cases hsource
      obtain ⟨-, value, hvalue, hvalues⟩ := hunion.inserted _ hgenerated
      have hname :
          (Header.mk "x-amz-copy-source" text).key =
              "x-amz-copy-source".toList := by
        show "x-amz-copy-source".toList.map Char.toLower = _
        decide
      rw [hname] at hvalues
      rw [HttpRequest.headerText, HeaderMap.get, hkept, hvalues,
        List.head?_cons, Option.bind_some,
        HeaderValue.fromStr_bytes hvalue, Lib.utf8Decode_utf8]
  | none =>
      have hnot := @copySource_not_generated env operation call.body hsource
      constructor
      · intro hnone _
        rw [← Bool.not_eq_true]
        intro hcaller
        obtain ⟨value, hvalue⟩ := HeaderMap.exists_get hcaller
        have hget : wire.headers.get "x-amz-copy-source" = some value := by
          rw [HeaderMap.get, hkept, hunion.kept _ hcaller]
          exact hvalue
        obtain ⟨text, htext⟩ := headerText_of_signed hsigned (by decide) hget
        rw [hnone] at htext
        cases htext
      · intro hmeant
        have habsent :
            call.headers.containsKey "x-amz-copy-source" = false := by
          rw [← Bool.not_eq_true]
          intro hpresent
          rcases hunion.only _ hpresent with hcaller | hgenerated
          · rw [hmeant hsource] at hcaller
            cases hcaller
          · exact hnot hgenerated
        rw [HttpRequest.headerText, HeaderMap.get, hkept,
          HeaderMap.getAll_of_absent habsent]
        rfl

end CopySource

/-! ## Every request of every run -/

section Sent

variable {client : S3Client} {env : OperationEnv}
  {operation : PrimitiveOperation} {call : SignedSend}
  {input userAgent : Str} {transport : Transport} {started : Instant}
  {labels : List SendLabel} {s : SendState}
  {t : Transmission}

theorem key_ne_nil (operation : PrimitiveOperation) :
    operation.key.map ObjectKey.text ≠ some [] := by
  intro h
  obtain ⟨key, -, hempty⟩ := Option.map_eq_some_iff.mp h
  exact key.nonempty hempty

/-- **What an operation sends is admitted**: by a service that knows the
credentials which the provider had given to the very attempt that sent it, at
the time of that attempt and under the region that it was sent to. -/
theorem requests_admitted {newer older : List Transmission}
    (hendpoint : Endpoint.new client.grammar input = .ok client.config.endpoint)
    (htransport : client.newTransport userAgent = .ok transport)
    (hprepare : operation.prepare client env = .ok call)
    (hreach : s.Reaches client call started labels)
    (hsplit : transmissions s.log = newer ++ t :: older) :
    SendState.Admitted client transport call started labels older t := by
  have hbuilt := prepare_built hprepare
  have hfree : call.headers.getAll "content-length" = [] := by
    refine HeaderMap.getAll_of_absent (Bool.eq_false_iff.mpr ?_)
    intro hpresent
    exact unprotected_of_built hbuilt hpresent (by decide)
  exact SendState.admitted_of_reaches
    (Endpoint.new_valid hendpoint) hbuilt.target hfree htransport
    hreach hsplit

/-- **What an operation sends is read as that operation**, with its own bucket,
key and parameters, unless the caller has made a put a copy. -/
theorem requests_dispatched
    (hendpoint : Endpoint.new client.grammar input = .ok client.config.endpoint)
    (htransport : client.newTransport userAgent = .ok transport)
    (hprepare : operation.prepare client env = .ok call)
    (hreach : s.Reaches client call started labels)
    (ht : t ∈ transmissions s.log) :
    ∃ out host, transport.outgoing t.request = .ok out ∧
      out.headerText "host" = some (client.config.serviceAuthority host) ∧
      ((Site.mk client.config.endpoint client.config.addressingStyle host).reads
        out =
          some (client.config.bucket, operation.action) ↔ operation.Meant) := by
  have hbuilt := prepare_built hprepare
  have hquery := query_eq hbuilt.query
  obtain ⟨newer, older, hsplit⟩ := List.append_of_mem ht
  obtain ⟨answer, -, haimed, hsigned⟩ :=
    SendState.signed_of_reaches
      (Endpoint.new_valid hendpoint) hbuilt.target hreach hsplit
  obtain ⟨-, hwireMethod, huri⟩ := signedRequest_ok hsigned
  obtain ⟨headers, hout, hkept⟩ :=
    SendState.outgoing_of_aimed htransport haimed huri
  obtain ⟨host, hauthority⟩ := haimed.authority
  have hread : ∀ name, name ≠ HeaderName.userAgent.text →
      HttpRequest.headerText { t.request with headers := headers } name =
          t.request.headerText name := by
    intro name hname
    rw [HttpRequest.headerText, HeaderMap.get, hkept name hname]
    rfl
  have hhost :
      HttpRequest.headerText { t.request with headers := headers } "host" =
      some (client.config.serviceAuthority host) := by
    rw [hread _ (by decide), ← hauthority]
    exact (declared_of_signed hsigned).1
  refine ⟨_, host, hout, hhost, ?_⟩
  -- what the service reads before it decides
  have huri : t.request.uri = t.target.serialized := huri
  obtain ⟨hpath, hwire⟩ := haimed.wire
  rw [← huri] at hpath hwire
  obtain ⟨sorted, hsorted, hperm⟩ :=
    wireQuery_perm (fieldsQuery operation.fields)
  have hresource :=
    @Site.readResource_url client.grammar client.config.endpoint
      client.config.bucket host
    (operation.key.map ObjectKey.text) client.config.addressingStyle call.target
      (Endpoint.new_closed hendpoint)
    (key_ne_nil operation) hbuilt.target
  have hreads :=
    @Site.reads_eq ⟨client.config.endpoint, client.config.addressingStyle, host⟩
    { t.request with headers := headers } _ client.config.bucket
      (operation.key.map ObjectKey.text) sorted hhost
    (by rw [← hresource, ← hpath]; rfl) (by rw [← hsorted, ← hquery, ← hwire])
  have hsource : ∀ header, operation.sourceHeader = some header →
      (t.request.headerText "x-amz-copy-source" = header ↔ operation.Meant) :=
    fun header hheader => source_of_signed hprepare rfl hsigned hheader
  have hwireMethod : t.request.method = operation.method :=
    hwireMethod.trans hbuilt.method
  have hown :
      (Site.mk client.config.endpoint client.config.addressingStyle host).reads
      { t.request with headers := headers } =
        (operation.readAs sorted (t.request.headerText "x-amz-copy-source")).map
            (client.config.bucket, ·) := by
    rw [hreads, hread _ (by decide), hwireMethod]
    rfl
  rw [hown]
  constructor
  · intro hresult hnone
    obtain ⟨action, haction, heq⟩ := Option.map_eq_some_iff.mp hresult
    obtain ⟨-, rfl⟩ := Prod.mk.inj heq
    exact (hsource none hnone).mp (source_of_readAs hnone haction) hnone
  · intro hmeant
    rw [read_action hperm fun header hheader =>
      (hsource header hheader).mpr hmeant]
    rfl

end Sent

/-! A version of an object whose name looks like a query is deleted, at the
second attempt and an hour after the first; and a listing has a prefix that
looks like another one. -/

def sampleDelete : PrimitiveOperation :=
  .deleteObject
    ⟨⟨"a?uploads", by decide, by decide⟩, some "&delete", none, HeaderMap.new⟩

def sampleListing : PrimitiveOperation :=
  .listObjectsV2
    ⟨some "a&uploads", some "/", some "b=c+d", none, PageSize.default, false,
    HeaderMap.new⟩

theorem sampleEndpoint_new :
    Endpoint.new unkeyedClient.grammar "https://s3.us-east-1.amazonaws.com" =
      .ok unkeyedClient.config.endpoint := rfl

def sampleTransport : Transport := ⟨.ofNat 1, false⟩

theorem sampleTransport_new :
    unkeyedClient.newTransport "1" = .ok sampleTransport := rfl

def sampleVerifier : Verifier where
  crypto := unkeyedClient.crypto
  secretOf accessKeyId token :=
    if accessKeyId = sampleCredentials.accessKeyId ∧
      token = sampleCredentials.sessionToken then
      some (Lib.utf8 sampleCredentials.secretAccessKey)
    else none

theorem sampleVerifier_knows :
    sampleVerifier.Knows unkeyedClient.crypto sampleCredentials := by
  refine ⟨rfl, ?_⟩
  simp only [sampleVerifier, and_self, if_true]

/-- The same credentials, an hour later. -/
def hourLater : SigningEnv :=
  { sampleSigningEnv with timestamp := ⟨2024, 1, 2, 4, 4, 5⟩ }

def retriedLabels : List SendLabel :=
  SendState.sampleRound ++
    (SendState.sampleRetry ++ [.check 0, .sign 0 (some hourLater) 0])

/-- Whether a run of an operation sends so many requests. -/
def sends (operation : PrimitiveOperation) (labels : List SendLabel)
    (count : Nat) : Bool :=
  match operation.prepare unkeyedClient sampleOperationEnv with
  | .error _ => false
  | .ok call =>
      (Lib.exec (SendState.step unkeyedClient call)
        (SendState.initial unkeyedClient call 0)
        labels).any fun s => (transmissions s.log).length = count

theorem exists_of_sends {operation : PrimitiveOperation}
    {labels : List SendLabel} {count : Nat}
    (h : sends operation labels count = true) :
    ∃ (call : SignedSend) (s : SendState),
      operation.prepare unkeyedClient sampleOperationEnv = .ok call ∧
        s.Reaches unkeyedClient call 0 labels ∧
        (transmissions s.log).length = count := by
  rw [sends] at h
  split at h
  · cases h
  next call hprepare =>
  obtain ⟨s, hreach, hs⟩ := Lib.exec_of_check _ _ _ _ h
  exact ⟨call, s, hprepare, hreach, of_decide_eq_true hs⟩

set_option maxRecDepth 100000 in
theorem sampleDelete_sends : sends sampleDelete retriedLabels 2 = true := by
    decide +kernel

set_option maxRecDepth 100000 in
theorem sampleListing_sends :
    sends sampleListing SendState.sampleRound 1 = true := by
  decide +kernel

/-- Only the first and the last but one of these labels are before a
signature. -/
theorem signs_retried {before after : List SendLabel} {wait later : Duration}
    {answer : SigningEnv}
    (h : retriedLabels = before ++ .sign wait (some answer) later :: after) :
    before = [.check 0] ∨ answer = hourLater := by
  rcases before with _ | ⟨_, _ | ⟨_, _ | ⟨_, _ | ⟨_, _ | ⟨_, before⟩⟩⟩⟩⟩
  · cases h
  · obtain ⟨rfl, -⟩ := List.cons.inj h
    exact Or.inl rfl
  · cases h
  · cases h
  · cases h
  · cases before with
    | nil =>
        cases h
        exact Or.inr rfl
    | cons label before =>
        have hlength := congrArg List.length h
        simp only [retriedLabels, SendState.sampleRound, SendState.sampleRetry,
          List.length_append,
          List.length_cons, List.length_nil] at hlength
        omega

theorem requests_admitted_retried : ∃ (t : Transmission) (out : HttpRequest)
    (authorization : Authorization),
    sampleTransport.outgoing t.request = .ok out ∧
      out.headerText "x-amz-date" = some "20240102T040405Z".toList ∧
      sampleVerifier.verifies out = some authorization ∧
      authorization.accessKeyId = sampleCredentials.accessKeyId ∧
      authorization.date = "20240102".toList := by
  obtain ⟨call, s, hprepare, hreach, hlength⟩ :=
    exists_of_sends sampleDelete_sends
  obtain ⟨t, first, hsent⟩ := List.length_eq_two.mp hlength
  obtain ⟨answer, credentials, out, hsentBy, hcredentials, -, hout, hdate,
      hadmitted⟩ :=
    requests_admitted sampleEndpoint_new sampleTransport_new hprepare hreach
      (hsent.trans (List.nil_append _).symm)
  obtain ⟨before, wait, later, after, m, m', hlabels, hbefore, -, hm, -⟩ :=
    hsentBy
  obtain rfl : answer = hourLater := by
    rcases signs_retried hlabels with rfl | hlater
    · -- nothing was sent before the first signature
      obtain ⟨_, _, _, ⟨before, _, _, _, _, _, hcheck, -⟩, -⟩ :=
        requests_admitted sampleEndpoint_new sampleTransport_new hprepare
          hbefore
          (hm.trans (List.nil_append _).symm)
      rcases before with _ | ⟨_, before⟩
      · cases hcheck
      · cases before <;> cases hcheck
    · exact hlater
  obtain rfl : sampleCredentials = credentials := Except.ok.inj hcredentials
  obtain ⟨authorization, hkey, hday, -, hverified, -⟩ :=
    hadmitted sampleVerifier sampleVerifier_knows
  have htime : formatTimestamp hourLater.timestamp =
      ("20240102T040405Z".toList, "20240102".toList) := by decide
  rw [htime] at hdate hday
  exact ⟨t, out, authorization, hout, hdate, hverified, hkey, hday⟩

theorem requests_dispatched_listing :
    ∃ (t : Transmission) (out : HttpRequest) (host : Str),
    sampleTransport.outgoing t.request = .ok out ∧
      (Site.mk sampleEndpoint .path host).reads out =
        some ("bucket".toList, .listObjectsV2 {
          keyPrefix := some "a&uploads".toList
          delimiter := some "/".toList
          continuationToken := some "b=c+d".toList
          startAfter := none
          maxKeys := some "1000".toList
          encodingType := some "url".toList
          fetchOwner := none }) := by
  obtain ⟨call, s, hprepare, hreach, hlength⟩ :=
    exists_of_sends sampleListing_sends
  obtain ⟨t, ht⟩ := List.length_eq_one_iff.mp hlength
  obtain ⟨out, host, hout, -, hreads⟩ :=
    requests_dispatched sampleEndpoint_new sampleTransport_new hprepare hreach
      (ht ▸ List.mem_singleton_self t)
  have hmeant : sampleListing.Meant := by
    intro hnone
    cases hnone
  exact ⟨t, out, host, hout, hreads.mpr hmeant⟩

end PrimitiveOperation

end S3Wire
