/-
# `S3Wire.Client.MultipartUpload.CompletionRead` — what a service reads in a completion

`serialize_complete_multipart_upload` of `src/protocol/multipart/completion.rs`,
from the side of the service.  The document is one of records
(`completionSchema`), so a service reads back the parts of the request exactly
when XML can carry their ETags and checksums
(`serializeCompleteMultipartUpload_read_iff`).  An ETag that the caller of
`CompletedPart::new` made up may have a character that it cannot.

The parts of a managed upload come from response headers, and what
`optional_header` accepts is visible ASCII.  So in every run the document that
is sent lists, for a service, the parts `1 … n` of the source, each with the
ETag and the checksums that the service itself gave to the request with that
part's bytes (`completion_reads_parts`).
-/
import S3Wire.Protocol.Record
import S3Wire.Client.MultipartUpload.Parts
import S3Wire.Client.MultipartUpload.Digests

namespace S3Wire

open Lib.Xml (isChar)

/-! ## Reading the document -/

def partFields : List Str :=
  ["PartNumber", "ETag", "ChecksumCRC32", "ChecksumCRC32C", "ChecksumCRC64NVME",
    "ChecksumSHA1", "ChecksumSHA256"]

theorem partFields_named : Lib.Xml.isName "CompleteMultipartUpload" = true ∧
    Lib.Xml.isName "Part" = true ∧
    ∀ field ∈ partFields, Lib.Xml.isName field = true := by decide

theorem partFields_distinct : partFields.Nodup := by decide

/-- `CompleteMultipartUpload`, a `Part` for each part. -/
def completionSchema : Schema where
  root := "CompleteMultipartUpload"
  item := "Part"
  fields := partFields
  named := partFields_named
  distinct := partFields_distinct

/-- A part of a completion, for the service. -/
structure PartEntry where
  number : Nat
  eTag : Str
  checksum : Checksum
  deriving DecidableEq

/-- The entry in a record; `none` where the number is no number. -/
def PartEntry.ofRecord : Record → Option PartEntry
  | [some number, some eTag, crc32, crc32c, crc64Nvme, sha1, sha256] =>
      (readDecimal number).map fun number =>
        ⟨number, eTag, ⟨crc32, crc32c, crc64Nvme, sha1, sha256⟩⟩
  | _ => none

/-- The parts that a completion lists. -/
def readCompletion (doc : Bytes) : Option (List PartEntry) :=
  ((readDocument doc).bind completionSchema.read).bind
    (·.mapM PartEntry.ofRecord)

namespace CompletedPart

def entry (part : CompletedPart) : PartEntry :=
  ⟨part.number, part.eTag, part.checksum⟩

def record (part : CompletedPart) : Record :=
  [some (decimal part.number), some part.eTag, part.checksum.crc32,
    part.checksum.crc32c,
    part.checksum.crc64Nvme, part.checksum.sha1, part.checksum.sha256]

/-- XML can carry the ETag and the checksums. -/
def Transmissible (part : CompletedPart) : Prop :=
  S3Wire.Transmissible part.eTag ∧
    ∀ text, some text ∈ [part.checksum.crc32, part.checksum.crc32c,
    part.checksum.crc64Nvme, part.checksum.sha1, part.checksum.sha256] →
      S3Wire.Transmissible text

end CompletedPart

section Reading

theorem transmissible_of_visible {text : Str}
    (h : ∀ c ∈ text, 32 ≤ c.toNat ∧ c.toNat ≤ 126) :
    Transmissible text := by
  refine List.all_eq_true.mpr ?_
  intro c hc
  obtain ⟨hlow, hhigh⟩ := h c hc
  simp only [isChar, Lib.Xml.inRanges, List.any_cons, List.any_nil,
    Bool.or_eq_true, Bool.and_eq_true,
    decide_eq_true_eq]
  omega

theorem transmissible_decimal (n : Nat) : Transmissible (decimal n) := by
  refine transmissible_of_visible ?_
  intro c hc
  have hrange :
    '0' ≤ c ∧
      c ≤ '9' := by simpa [Char.isDigit, Char.le_def] using isDigit_decimal hc
  have hlow : 48 ≤ c.toNat := hrange.1
  have hhigh : c.toNat ≤ 57 := hrange.2
  omega

variable {part : CompletedPart}

theorem completeDocument_eq (parts : List CompletedPart) :
    completeDocument parts =
      completionSchema.document (parts.map CompletedPart.record) := by
  have hpart : ∀ part : CompletedPart,
      completedPartDocument part =
          completionSchema.writeRecord part.record := by
    intro part
    have hpresent :
      ∀ name text, textElement name text = optionalElement name (some text) :=
        fun _ _ => rfl
    have hwritten : completionSchema.writeRecord part.record =
        element "Part" (writeFields (partFields.zip part.record)) := rfl
    rw [hwritten, completedPartDocument, hpresent, hpresent]
    simp only [writeFields, partFields, CompletedPart.record,
      List.zip_cons_cons, List.zip_nil_right,
      List.flatMap_cons, List.flatMap_nil, List.append_assoc, List.append_nil]
  rw [completeDocument, Schema.document, Schema.content, List.flatMap_map]
  exact congrArg _ (List.flatMap_congr fun part _ => hpart part)

theorem CompletedPart.fits_record (part : CompletedPart) :
    completionSchema.Fits part.record := by
  have hrecord : part.record.length = 7 := rfl
  have hfields : completionSchema.fields.length = 7 := rfl
  exact hrecord.trans hfields.symm

theorem CompletedPart.transmissible_record : part.record.Transmissible ↔
    part.Transmissible := by
  have hcons : ∀ (first : Str) (rest : List (Option Str)),
      (∀ text, some text ∈ some first :: rest → S3Wire.Transmissible text) ↔
        S3Wire.Transmissible first ∧ ∀ text, some text ∈ rest →
            S3Wire.Transmissible text := by
    intro first rest
    constructor
    · intro h
      exact ⟨h first (List.mem_cons_self ..),
        fun text htext => h text (List.mem_cons_of_mem _ htext)⟩
    · rintro ⟨hfirst, hrest⟩ text htext
      rcases List.mem_cons.mp htext with heq | htext
      · cases heq
        exact hfirst
      · exact hrest text htext
  rw [Record.Transmissible, record, hcons, hcons, CompletedPart.Transmissible]
  exact and_iff_right (transmissible_decimal part.number)

theorem PartEntry.ofRecord_record (part : CompletedPart) :
    ofRecord part.record = some part.entry := by
  show (readDecimal (decimal part.number)).map _ = _
  rw [readDecimal_decimal]
  rfl

/-- What a service reads is what was listed when, and only when, XML can carry
it. -/
theorem readCompletion_document (parts : List CompletedPart) :
    readCompletion (Lib.utf8 (completeDocument parts).flatten) =
      some (parts.map CompletedPart.entry) ↔
      ∀ part ∈ parts, part.Transmissible := by
  have hfits : ∀ record ∈ parts.map CompletedPart.record,
      completionSchema.Fits record := by
    intro record hrecord
    obtain ⟨part, -, rfl⟩ := List.mem_map.mp hrecord
    exact part.fits_record
  have htransmissible :
      (∀ record ∈ parts.map CompletedPart.record, record.Transmissible) ↔
      ∀ part ∈ parts, part.Transmissible := by
    rw [List.forall_mem_map]
    exact forall₂_congr fun part _ => CompletedPart.transmissible_record
  have hentries : (parts.map CompletedPart.record).mapM PartEntry.ofRecord =
      some (parts.map CompletedPart.entry) := by
    refine Lib.mapM_some ?_
    rw [List.forall₂_map_left_iff, List.forall₂_map_right_iff,
      List.forall₂_same]
    exact fun part _ => PartEntry.ofRecord_record part
  rw [readCompletion, completeDocument_eq, ← htransmissible,
    ← Schema.document_read_iff hfits]
  constructor
  · intro h
    obtain ⟨records, hread, -⟩ := Option.bind_eq_some_iff.mp h
    rw [Schema.document_read hfits] at hread ⊢
    split at hread
    · next hall => exact if_pos hall
    · cases hread
  · intro h
    rw [h, Option.bind_some]
    exact hentries

/-- **Completing what was listed.**  The document is well formed and lists the
parts of the request, each with its ETag and checksums, when, and only when, XML
can carry them. -/
theorem serializeCompleteMultipartUpload_read_iff
    {request : CompleteMultipartUploadRequest} {maximum : Nat} {doc : Bytes}
    (h : serializeCompleteMultipartUpload request maximum = .ok doc) :
    readCompletion doc = some (request.completedParts.map CompletedPart.entry) ↔
      ∀ part ∈ request.completedParts, part.Transmissible := by
  rw [serializeBounded_ok h]
  exact readCompletion_document request.completedParts

theorem onePart_pos : 0 < 1 := by decide

theorem onePart_le_max : 1 ≤ 10000 := by decide

/-- A completion of one part. -/
def completeOne (eTag : Str) (tagged : eTag.isBlank = false) :
    CompleteMultipartUploadRequest where
  key := oneByteRequest.key
  uploadId := oneByteUploadId
  completedParts := [⟨⟨1, onePart_pos, onePart_le_max⟩, eTag, {}, tagged⟩]
  headers := HeaderMap.new

/-- A tag with markup and ends of lines is read as it is; a tag with a control
character is not. -/
theorem serializeCompleteMultipartUpload_read_tags :
    (∃ doc, serializeCompleteMultipartUpload
      (completeOne "a<&\r\nb" (by decide)) 1024 = .ok doc ∧
      readCompletion doc = some [⟨1, "a<&\r\nb".toList, {}⟩]) ∧
    ∃ doc, serializeCompleteMultipartUpload
      (completeOne "a\x01b" (by decide)) 1024 = .ok doc ∧
      readCompletion doc ≠ some [⟨1, "a\x01b".toList, {}⟩] := by
  have hwrites :
      ∀ request, (serializeCompleteMultipartUpload request 1024).isOk = true →
      ∃ doc, serializeCompleteMultipartUpload request 1024 = .ok doc := by
    intro request h
    cases hdoc : serializeCompleteMultipartUpload request 1024 with
    | error e =>
        rw [hdoc] at h
        cases h
    | ok doc => exact ⟨doc, rfl⟩
  obtain ⟨doc, h⟩ :=
    hwrites (completeOne "a<&\r\nb" (by decide)) (by decide +kernel)
  obtain ⟨doc', h'⟩ :=
    hwrites (completeOne "a\x01b" (by decide)) (by decide +kernel)
  refine ⟨⟨doc, h, (serializeCompleteMultipartUpload_read_iff h).mpr ?_⟩, doc',
    h', ?_⟩
  · intro part hpart
    rw [List.mem_singleton.mp hpart]
    exact ⟨by decide, fun text htext => by simp at htext⟩
  · intro hread
    obtain ⟨htag, -⟩ :=
      (serializeCompleteMultipartUpload_read_iff h').mp hread _
        (List.mem_singleton_self _)
    exact absurd htag (by decide)

end Reading

/-! ## The parts of a managed upload -/

section Responses

variable {headers : HeaderMap} {name : Str} {checksum : Checksum}

theorem asciiText_le : ∀ b : UInt8, isVisibleByte b = true →
    (Char.ofNat b.toNat).toNat ≤ 126 :=
  Lib.forall_byte (by decide +kernel)

theorem transmissible_of_optionalHeader {text : Str}
    (h : optionalHeader headers name = .ok (some text)) :
    Transmissible text := by
  rw [optionalHeader] at h
  split at h
  · cases h
  next value _ =>
  split at h
  · next s hfilter =>
      cases h
      obtain ⟨hread, hkept⟩ := Option.filter_eq_some_iff.mp hfilter
      rw [HeaderValue.toStr] at hread
      split at hread
      · next hvisible =>
          cases hread
          rw [Bool.and_eq_true, List.all_eq_true] at hkept
          refine transmissible_of_visible fun c hc => ?_
          obtain ⟨b, hb, rfl⟩ := List.mem_map.mp hc
          refine ⟨?_, asciiText_le b (List.all_eq_true.mp hvisible b hb)⟩
          have hcontrol := hkept.2 _ hc
          rw [isAsciiControl, Bool.not_eq_true', Bool.or_eq_false_iff,
            decide_eq_false_iff_not] at hcontrol
          exact Nat.le_of_not_lt hcontrol.1
      · cases hread
  · cases h

theorem transmissible_of_requiredHeader {text message : Str}
    (h : requiredHeader headers name message = .ok text) :
    Transmissible text := by
  rw [requiredHeader] at h
  split at h
  · cases h
  · cases h
  · next hheader =>
      cases h
      exact transmissible_of_optionalHeader hheader

theorem transmissible_of_optionalChecksumHeader {digestLength : Nat}
    {value : Option Str} {text : Str}
    (h : optionalChecksumHeader headers name digestLength = .ok value)
    (htext : value = some text) :
    Transmissible text := by
  rw [optionalChecksumHeader] at h
  split at h
  · cases h
  · next hheader =>
      split at h
      · cases h
      · cases h
        exact transmissible_of_optionalHeader (htext ▸ hheader)

theorem transmissible_of_responseChecksums
    (h : responseChecksums headers = .ok checksum) {text : Str}
    (htext :
    some text ∈ [checksum.crc32, checksum.crc32c, checksum.crc64Nvme,
      checksum.sha1, checksum.sha256]) :
    Transmissible text := by
  obtain ⟨crc32, h₁, h⟩ := Lib.bind_ok h
  obtain ⟨crc32c, h₂, h⟩ := Lib.bind_ok h
  obtain ⟨crc64Nvme, h₃, h⟩ := Lib.bind_ok h
  obtain ⟨sha1, h₄, h⟩ := Lib.bind_ok h
  obtain ⟨sha256, h₅, h⟩ := Lib.bind_ok h
  cases h
  simp only [List.mem_cons, List.not_mem_nil, or_false] at htext
  rcases htext with htext | htext | htext | htext | htext
  · exact transmissible_of_optionalChecksumHeader h₁ htext.symm
  · exact transmissible_of_optionalChecksumHeader h₂ htext.symm
  · exact transmissible_of_optionalChecksumHeader h₃ htext.symm
  · exact transmissible_of_optionalChecksumHeader h₄ htext.symm
  · exact transmissible_of_optionalChecksumHeader h₅ htext.symm

theorem uploadPartOutput_ok {number : PartNumber} {output : UploadPartOutput}
    (h : uploadPartOutput number headers = .ok output) :
    requiredHeader headers "etag" "upload-part response has no usable ETag" =
      .ok output.eTag ∧
      responseChecksums headers = .ok output.checksum := by
  rw [uploadPartOutput] at h
  split at h
  · cases h
  · next htag =>
      split at h
      · cases h
      · next hchecksum =>
          cases h
          exact ⟨htag, hchecksum⟩

end Responses

/-- The service answered the request with this body, for this part, with this
ETag and these checksums. -/
def Answer (w : Worker) (entry : PartEntry) (body : Bytes) : Prop :=
  ∃ headers, .partResolved entry.number (.response headers) ∈ w.history ∧
    requiredHeader headers "etag" "upload-part response has no usable ETag" =
      .ok entry.eTag ∧
    responseChecksums headers = .ok entry.checksum ∧
    ∃ sent, .partSent sent ∈ w.history ∧ sent.partNumber.get = entry.number ∧
      sent.body = body

/-- **What the service is asked to join.**  In every run of a managed upload,
the document of the completion reads as the parts `1 … n` of the source in
order, each with the ETag and the checksums that the service gave to the request
with that part's bytes. -/
theorem completion_reads_parts {sha : Sha256}
    {q : ManagedMultipartUploadRequest} {w : Worker} {labels : List Label}
    {r : CompleteMultipartUploadRequest} {maximum : Nat} {doc : Bytes}
    (hrun : Lib.exec (Worker.step sha) (Worker.init q) labels = some w)
    (hr : .completeIssued r ∈ w.history)
    (hdoc : serializeCompleteMultipartUpload r maximum = .ok doc) :
    ∃ source n entries, .prepared source ∈ w.history ∧
    source.partCount q.options.partSize = .ok n ∧
      readCompletion doc = some entries ∧
      entries.map PartEntry.number = (List.range n).map (· + 1) ∧
      (∀ entry ∈ entries,
        Answer w entry
          (Lib.piece q.options.partSize source.content (entry.number - 1))) ∧
      (entries.map fun entry => Lib.piece q.options.partSize source.content
        (entry.number - 1)).flatten =
        source.content := by
  obtain ⟨-, hlaw, -⟩ := inv_run hrun
  have hk : 0 < q.options.partSize :=
    lt_of_lt_of_le (by decide) q.options.partSize_ge
  obtain ⟨past, hsuffix, upload, rest, rfl, hparts, -⟩ := hlaw.of_mem hr
  have hup : .partsUploaded upload ∈ w.history :=
    hsuffix.subset (List.mem_cons_self ..)
  obtain ⟨past', hsuffix', -, -, source, n, hsource, hcount, -⟩ :=
    hlaw.of_mem hup
  have hprepared : .prepared source ∈ w.history := hsuffix'.subset hsource
  obtain ⟨hnumbers, -, -, honly⟩ := uploaded_of_mem hlaw hprepared hcount hup
  obtain ⟨hbodies, hflatten⟩ := bodies_cover hk hcount
  have hentry : ∀ part ∈ upload.completedParts, part.Transmissible ∧
      Answer w part.entry
          (Lib.piece q.options.partSize source.content (part.number - 1)) := by
    intro part hpart
    obtain ⟨reply, hreply, hres⟩ := honly part hpart
    obtain ⟨headers, output, hresponse, -, houtput, htag, hchecksum⟩ :=
      recorded_response hlaw hreply hres
    obtain ⟨hheader, hchecksums⟩ := uploadPartOutput_ok houtput
    rw [← htag] at hheader
    rw [← hchecksum] at hchecksums
    refine ⟨⟨transmissible_of_requiredHeader hheader, fun text htext =>
      transmissible_of_responseChecksums hchecksums htext⟩, headers, hresponse,
        hheader, hchecksums, ?_⟩
    obtain ⟨sent, hsent, hnumber⟩ := sent_of_response hlaw hresponse
    have hmem : part.number ∈ (List.range n).map (· + 1) :=
      hnumbers ▸ List.mem_map_of_mem hpart
    obtain ⟨i, hin, hpi⟩ := List.mem_map.mp hmem
    have hin := List.mem_range.mp hin
    have hread := body_of_sent hlaw hprepared hsent
    rw [hnumber, (hbodies part.number (by omega) (by omega)).1] at hread
    exact ⟨sent, hsent, hnumber, (Except.ok.inj hread).symm⟩
  have hread :
      readCompletion doc = some (r.completedParts.map CompletedPart.entry) := by
    rw [serializeBounded_ok hdoc]
    refine (readCompletion_document r.completedParts).mpr ?_
    rw [hparts]
    exact fun part hpart => (hentry part hpart).1
  have hnumber :
      (upload.completedParts.map CompletedPart.entry).map PartEntry.number =
      (List.range n).map (· + 1) := by
    rw [List.map_map, ← hnumbers]
    rfl
  rw [hparts] at hread
  refine ⟨source, n, _, hprepared, hcount, hread, hnumber, ?_, ?_⟩
  · intro entry hentry'
    obtain ⟨part, hpart, rfl⟩ := List.mem_map.mp hentry'
    exact (hentry part hpart).2
  · have hpieces :
        ((upload.completedParts.map CompletedPart.entry).map fun entry =>
          Lib.piece q.options.partSize source.content (entry.number - 1)) =
        ((List.range n).map (· + 1)).map fun i =>
            Lib.piece q.options.partSize source.content (i - 1) := by
      rw [← hnumber, List.map_map, List.map_map, List.map_map]
      rfl
    rw [hpieces, List.map_map]
    exact hflatten

/-- Two parts, of which the second is answered first, are asked for in order. -/
theorem completion_reads_parts_two_parts :
    ∃ w r doc entries, Lib.exec (Worker.step standardSha256)
        (Worker.init (twoPartRequest twoPartBuffer)) twoParts = some w ∧
      .completeIssued r ∈ w.history ∧ serializeCompleteMultipartUpload r 1024 =
        .ok doc ∧
      readCompletion doc = some entries ∧
      entries.map PartEntry.number = [1, 2] ∧
      (∀ entry ∈ entries, ∃ body, Answer w entry body) ∧
      (entries.map fun entry =>
        Lib.piece minPartSize twoPartBuffer.bytes (entry.number - 1)).flatten =
          twoPartBuffer.bytes := by
  obtain ⟨w, first, second, upload, request, hw, hhistory, -, hparts⟩ :=
    @twoParts_run standardSha256 twoPartBuffer twoPartBuffer_count
  have hissued : .completeIssued request ∈ w.history := by
    rw [hhistory]
    simp
  have hwritten : (serializeCompleteMultipartUpload request 1024).isOk =
      true := by
    rw [serializeCompleteMultipartUpload, hparts]
    decide +kernel
  obtain ⟨doc, hdoc⟩ : ∃ doc, serializeCompleteMultipartUpload request 1024 =
      .ok doc := by
    cases hdoc : serializeCompleteMultipartUpload request 1024 with
    | ok doc => exact ⟨doc, rfl⟩
    | error e =>
        rw [hdoc] at hwritten
        cases hwritten
  obtain ⟨source, n, entries, hprepared, hcount, hread, hnumbers, hanswers,
      hflatten⟩ :=
    completion_reads_parts hw hissued hdoc
  obtain rfl : source = .bytes twoPartBuffer := by
    rw [hhistory] at hprepared
    simpa [twoPartHistory, twoPartsPushed] using hprepared
  obtain rfl : n = 2 := Except.ok.inj (hcount.symm.trans twoPartBuffer_count)
  exact ⟨w, request, doc, entries, hw, hissued, hdoc, hread, hnumbers,
    fun entry hentry => ⟨_, hanswers entry hentry⟩, hflatten⟩

end S3Wire
