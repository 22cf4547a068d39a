/-
# `S3Wire.Client.MultipartUpload.CompletionSize` — does the completion document fit?

`complete_multipart_upload_with_deadline` serializes the completion document
under `max_xml_response_size`, the bound the configuration sets for responses:
one mebibyte by default.  The document grows with the number of parts, and the
number of parts is bounded only by 10,000.  With an ETag of 32 quoted hex digits
a part takes

    85 + digits(i) + checksum element

bytes, the root 51, and the checksum element is 39 bytes for CRC32, 41 for
CRC32C, 51 for CRC64NVME, 77 for SHA-256.  So without a checksum 10,000 parts
fit, and with one they do not: `maximumParts` is the exact number that does.
-/
import S3Wire.Client.MultipartUpload.Part
import S3Wire.Protocol.Completion

namespace S3Wire

/-- `max_xml_response_size` of `S3ConfigBuilder::default`. -/
def defaultMaxXmlResponseSize : Nat := 1024 * 1024

/-- The largest number of parts whose completion document fits the default
bound, by checksum algorithm.  SHA-1 is refused by `with_checksum_algorithm`. -/
def maximumParts : Option ChecksumAlgorithm → Nat
  | none => 10000
  | some .crc32 => 8200
  | some .crc32c => 8074
  | some .crc64Nvme => 7497
  | some .sha256 => 6323
  | some .sha1 => 0

/-! ## A service that echoes -/

def isHexDigit (c : Char) : Bool :=
  c.isDigit || ('a' ≤ c && c ≤ 'f') || ('A' ≤ c && c ≤ 'F')

/-- A header is present exactly when the field is, with its text. -/
def HeaderMap.Echoes (headers : HeaderMap) (name : Str) (field : Option Str) :
    Prop :=
  (headers.get name).map HeaderValue.toStr = field.map some

/-- The response to a part: a quoted ETag of 32 hex digits, and the checksum
headers of the request. -/
structure Answered (request : UploadPartRequest) (headers : HeaderMap) :
    Prop where
  tag : ∃ hex : Str, hex.length = 32 ∧ (∀ c ∈ hex, isHexDigit c = true) ∧
    headers.Echoes "etag" (some ('"' :: (hex ++ ['"'])))
  crc32 : headers.Echoes "x-amz-checksum-crc32" request.checksum.crc32
  crc32c : headers.Echoes "x-amz-checksum-crc32c" request.checksum.crc32c
  crc64Nvme :
    headers.Echoes "x-amz-checksum-crc64nvme" request.checksum.crc64Nvme
  sha1 : headers.Echoes "x-amz-checksum-sha1" request.checksum.sha1
  sha256 : headers.Echoes "x-amz-checksum-sha256" request.checksum.sha256

/-- A checksum field that holds the base64 of a digest of this length. -/
def HoldsDigest (length : Nat) : Option Str → Prop
  | none => True
  | some text => ∃ bs : Bytes, bs.length = length ∧ text = Lib.base64Encode bs

theorem optionalHeader_of_echoes {headers : HeaderMap} {name : Str}
    {field : Option Str} (h : headers.Echoes name field)
    (hok : ∀ s, field = some s → s ≠ [] ∧ Str.len s ≤ 2048 ∧
      ∀ c ∈ s, isAsciiControl c = false) :
    optionalHeader headers name = .ok field := by
  unfold HeaderMap.Echoes at h
  unfold optionalHeader
  cases hg : headers.get name with
  | none =>
      cases field with
      | none => rfl
      | some s => simp [hg] at h
  | some value =>
      cases field with
      | none => simp [hg] at h
      | some s =>
          obtain ⟨hne, hlen, hctl⟩ := hok s rfl
          have hs : value.toStr = some s := by simpa [hg] using h
          have hempty : s.isEmpty = false := by simpa using hne
          have hall : (s.all fun c => !isAsciiControl c) = true := by
            rw [List.all_eq_true]
            intro c hc
            simp [hctl c hc]
          simp [hs, Option.filter, hempty, hlen, hall]

theorem optionalChecksumHeader_of_echoes {headers : HeaderMap} {name : Str}
    {field : Option Str} {length : Nat} (hpos : 0 < length) (hle : length ≤ 32)
    (h : headers.Echoes name field) (hd : HoldsDigest length field) :
    optionalChecksumHeader headers name length = .ok field := by
  have hvalid : ∀ s, field = some s → s ≠ [] ∧ Str.len s ≤ 2048 ∧
      (∀ c ∈ s, isAsciiControl c = false) ∧
          validBase64Digest s length = true := by
    rintro s rfl
    obtain ⟨bs, hbs, rfl⟩ := hd
    have hne : bs ≠ [] := by
      rintro rfl
      simp at hbs
      omega
    refine ⟨?_, ?_, fun c hc => (base64Encode_ascii c hc).2, ?_⟩
    · intro hnil
      have := Lib.length_base64Encode bs
      rw [hnil] at this
      simp at this
      omega
    · rw [len_base64Encode]
      omega
    · rw [← hbs]
      exact validBase64Digest_encode hne
  unfold optionalChecksumHeader
  rw [optionalHeader_of_echoes h fun s hs =>
    ⟨(hvalid s hs).1, (hvalid s hs).2.1, (hvalid s hs).2.2.1⟩]
  cases field with
  | none => rfl
  | some s => simp [(hvalid s rfl).2.2.2]

/-! ## The checksums of a request -/

/-- The bytes one checksum adds to the description of its part. -/
def checksumCost : Option ChecksumAlgorithm → Nat
  | none => 0
  | some .crc32 => 39
  | some .crc32c => 41
  | some .crc64Nvme => 51
  | some .sha256 => 77
  | some .sha1 => 0

/-- The elements of the checksums that are there. -/
def checksumElements (checksum : Checksum) : List Str :=
  optionalElement "ChecksumCRC32" checksum.crc32 ++
    optionalElement "ChecksumCRC32C" checksum.crc32c ++
    optionalElement "ChecksumCRC64NVME" checksum.crc64Nvme ++
    optionalElement "ChecksumSHA1" checksum.sha1 ++
    optionalElement "ChecksumSHA256" checksum.sha256

/-- Every checksum that is there is the text of a digest of its length. -/
structure WireChecksum (checksum : Checksum) : Prop where
  crc32 : HoldsDigest 4 checksum.crc32
  crc32c : HoldsDigest 4 checksum.crc32c
  crc64Nvme : HoldsDigest 8 checksum.crc64Nvme
  sha1 : HoldsDigest 20 checksum.sha1
  sha256 : HoldsDigest 32 checksum.sha256

theorem unescaped_base64 {bs : Bytes} (hne : bs ≠ []) :
    Unescaped (Lib.base64Encode bs) := by
  refine ⟨?_, ?_⟩
  · intro hnil
    have hlen := Lib.length_base64Encode bs
    have hpos : 0 < bs.length := List.length_pos_iff.mpr hne
    rw [hnil] at hlen
    simp at hlen
    omega
  · have halphabet :
      ∀ n < 64, xmlEscape (Lib.base64Char n) = [Lib.base64Char n] := by decide
    intro c hc
    rw [Lib.base64Encode_eq] at hc
    rcases List.mem_append.mp hc with h | h
    · obtain ⟨n, hn, rfl⟩ := List.mem_map.mp h
      exact halphabet n (Lib.sextet_lt hn)
    · obtain rfl := List.eq_of_mem_replicate h
      decide

theorem fragmentsLen_digest (name : Str) {bs : Bytes} (hne : bs ≠ []) :
    fragmentsLen (textElement name (Lib.base64Encode bs)) =
      5 + 2 * Str.len name + (bs.length + 2) / 3 * 4 := by
  rw [fragmentsLen_textElement _ (unescaped_base64 hne), len_base64Encode]

@[simp] theorem fragmentsLen_nil : fragmentsLen [] = 0 := rfl

/-- What the client calculates for a part, in the two forms that matter: every
field is the base64 of a digest, and the elements have the known size. -/
theorem partChecksum_spec (sha : Sha256) {algorithm : Option ChecksumAlgorithm}
    (h : algorithm ≠ some .sha1) (body : Bytes) :
    ∃ checksum, partChecksum sha algorithm body = .ok checksum ∧
    WireChecksum checksum ∧
      fragmentsLen (checksumElements checksum) = checksumCost algorithm := by
  have hfour : ∀ v : BitVec 32, toBeBytes 4 v ≠ [] := fun v hv => by
    have := length_toBeBytes 4 v
    simp [hv] at this
  have height : ∀ v : BitVec 64, toBeBytes 8 v ≠ [] := fun v hv => by
    have := length_toBeBytes 8 v
    simp [hv] at this
  have hsha : ∀ b : Bytes, sha.digest b ≠ [] := fun b hb => by
    have := sha.length_digest b
    simp [hb] at this
  cases algorithm with
  | none => exact ⟨{}, rfl, ⟨trivial, trivial, trivial, trivial, trivial⟩, rfl⟩
  | some algorithm =>
      cases algorithm with
      | sha1 => exact absurd rfl h
      | crc32 =>
          refine ⟨_, rfl,
            ⟨⟨_, length_toBeBytes _ _, rfl⟩, trivial, trivial, trivial,
              trivial⟩, ?_⟩
          have hname : Str.len "ChecksumCRC32".toList = 13 := by decide
          simp only [checksumElements, fragmentsLen_append,
            fragmentsLen_digest _ (hfour _), hname,
            length_toBeBytes, optionalElement, fragmentsLen_nil, checksumCost]
      | crc32c =>
          refine ⟨_, rfl,
            ⟨trivial, ⟨_, length_toBeBytes _ _, rfl⟩, trivial, trivial,
              trivial⟩, ?_⟩
          have hname : Str.len "ChecksumCRC32C".toList = 14 := by decide
          simp only [checksumElements, fragmentsLen_append,
            fragmentsLen_digest _ (hfour _), hname,
            length_toBeBytes, optionalElement, fragmentsLen_nil, checksumCost]
      | crc64Nvme =>
          refine ⟨_, rfl,
            ⟨trivial, trivial, ⟨_, length_toBeBytes _ _, rfl⟩, trivial,
              trivial⟩, ?_⟩
          have hname : Str.len "ChecksumCRC64NVME".toList = 17 := by decide
          simp only [checksumElements, fragmentsLen_append,
            fragmentsLen_digest _ (height _), hname,
            length_toBeBytes, optionalElement, fragmentsLen_nil, checksumCost]
      | sha256 =>
          refine ⟨_, rfl,
            ⟨trivial, trivial, trivial, trivial, ⟨_, sha.length_digest _, rfl⟩⟩,
              ?_⟩
          have hname : Str.len "ChecksumSHA256".toList = 14 := by decide
          simp only [checksumElements, fragmentsLen_append,
            fragmentsLen_digest _ (hsha _), hname,
            sha.length_digest, optionalElement, fragmentsLen_nil, checksumCost]

/-! ## The size of one part -/

theorem isDigit_facts {c : Char} (h : c.isDigit = true) : c.toNat ≤ 127 ∧
    xmlEscape c = [c] := by
  have hrange : 48 ≤ c.toNat ∧ c.toNat ≤ 57 := by
    simpa [Char.isDigit, Char.le_def, UInt32.le_iff_toNat_le] using h
  refine ⟨by omega, ?_⟩
  have hne : ∀ d : Char, (d.toNat < 48 ∨ 57 < d.toNat) → c ≠ d := by
    rintro d hd rfl
    omega
  simp only [xmlEscape, hne '&' (by decide), hne '<' (by decide),
    hne '>' (by decide),
    hne '\r' (by decide), if_false]

theorem decimal_unescaped (n : Nat) : Unescaped (decimal n) :=
  ⟨Nat.toDigits_ne_nil, fun _ hc =>
    (isDigit_facts (Nat.isDigit_of_mem_toDigits (by decide) (by decide) hc)).2⟩

theorem len_decimal (n : Nat) : Str.len (decimal n) = (decimal n).length := by
  have hascii : ∀ c ∈ decimal n, c.toNat ≤ 127 := fun c hc =>
    (isDigit_facts (Nat.isDigit_of_mem_toDigits (by decide) (by decide) hc)).1
  unfold Str.len
  rw [utf8_ascii hascii, List.length_map]

/-- A quoted tag of 32 hex digits: 34 bytes, nothing escaped, acceptable as a
header and not blank. -/
theorem quotedTag_facts {hex : Str} (hlen : hex.length = 32)
    (hhex : ∀ c ∈ hex, isHexDigit c = true) :
    Unescaped ('"' :: (hex ++ ['"'])) ∧ Str.len ('"' :: (hex ++ ['"'])) = 34 ∧
      (∀ c ∈ '"' :: (hex ++ ['"']), isAsciiControl c = false) ∧
      Str.isBlank ('"' :: (hex ++ ['"'])) = false := by
  have hchar : ∀ c : Char, isHexDigit c = true ∨ c = '"' →
      c.toNat ≤ 127 ∧ xmlEscape c = [c] ∧ isAsciiControl c = false := by
    rintro c (hc | rfl)
    · have hrange : (48 ≤ c.toNat ∧ c.toNat ≤ 57) ∨
          (97 ≤ c.toNat ∧ c.toNat ≤ 102) ∨
          (65 ≤ c.toNat ∧ c.toNat ≤ 70) := by
        simpa [isHexDigit, Char.isDigit, Char.le_def, UInt32.le_iff_toNat_le,
          or_assoc] using hc
      have hne : ∀ d : Char, (d.toNat < 48 ∨ 57 < d.toNat ∧ d.toNat < 65) →
          c ≠ d := by
        rintro d hd rfl
        omega
      refine ⟨by omega, ?_, ?_⟩
      · simp only [xmlEscape, hne '&' (by decide), hne '<' (by decide),
          hne '>' (by decide),
          hne '\r' (by decide), if_false]
      · simp only [isAsciiControl, Bool.or_eq_false_iff,
          decide_eq_false_iff_not, beq_eq_false_iff_ne]
        omega
    · decide
  have hmem : ∀ c ∈ '"' :: (hex ++ ['"']), isHexDigit c = true ∨ c = '"' := by
    intro c hc
    simp only [List.mem_cons, List.mem_append, List.not_mem_nil, or_false] at hc
    rcases hc with rfl | hc | rfl
    · exact Or.inr rfl
    · exact Or.inl (hhex c hc)
    · exact Or.inr rfl
  refine ⟨⟨by simp, fun c hc => (hchar c (hmem c hc)).2.1⟩, ?_,
    fun c hc => (hchar c (hmem c hc)).2.2, by simp [Str.isBlank, isWhitespace]⟩
  unfold Str.len
  rw [utf8_ascii fun c hc => (hchar c (hmem c hc)).1, List.length_map]
  simp [hlen]

theorem fragmentsLen_completedPart (p : CompletedPart) {tag : Str}
    (htag : p.eTag = tag) (hun : Unescaped tag) :
    fragmentsLen (completedPartDocument p) =
      51 + (decimal p.number).length + Str.len tag + fragmentsLen
        (checksumElements p.checksum) := by
  have hpart : Str.len "Part".toList = 4 := by decide
  have hnumber : Str.len "PartNumber".toList = 10 := by decide
  have hetag : Str.len "ETag".toList = 4 := by decide
  subst htag
  simp only [completedPartDocument, fragmentsLen_element, fragmentsLen_append,
    hpart,
    fragmentsLen_textElement _ (decimal_unescaped p.number), hnumber, hetag,
      len_decimal,
    fragmentsLen_textElement _ hun, checksumElements]
  omega

/-- The descriptor of an answered part: its number, its checksums, its size. -/
theorem partResult_of_answered {request : UploadPartRequest}
    {headers : HeaderMap} (hw : WireChecksum request.checksum)
    (h : Answered request headers) :
    ∃ p, partResult request.partNumber.get (.response headers) = .ok p ∧
      p.number = request.partNumber.get ∧
      fragmentsLen (completedPartDocument p) =
        85 + (decimal request.partNumber.get).length +
          fragmentsLen (checksumElements request.checksum) := by
  obtain ⟨hex, hlen, hhex, htag⟩ := h.tag
  obtain ⟨hun, hsize, hctl, hblank⟩ := quotedTag_facts hlen hhex
  have hrequired :
      requiredHeader headers "etag" "upload-part response has no usable ETag" =
      .ok ('"' :: (hex ++ ['"'])) := by
    unfold requiredHeader
    rw [optionalHeader_of_echoes htag fun s hs => by
      cases hs
      exact ⟨by simp, by omega, hctl⟩]
  have hchecksums : responseChecksums headers = .ok request.checksum := by
    unfold responseChecksums
    rw [optionalChecksumHeader_of_echoes (by decide)
      (by decide) h.crc32 hw.crc32,
      optionalChecksumHeader_of_echoes (by decide)
        (by decide) h.crc32c hw.crc32c,
      optionalChecksumHeader_of_echoes (by decide)
        (by decide) h.crc64Nvme hw.crc64Nvme,
      optionalChecksumHeader_of_echoes (by decide) (by decide) h.sha1 hw.sha1,
      optionalChecksumHeader_of_echoes (by decide)
        (by decide) h.sha256 hw.sha256]
    rfl
  refine ⟨⟨request.partNumber, '"' :: (hex ++ ['"']), request.checksum, hblank⟩,
    ?_, rfl, ?_⟩
  · unfold partResult
    rw [PartNumber.new_of_range request.partNumber.pos
      request.partNumber.le_max]
    simp only [completePart, uploadPartOutput, hrequired, hchecksums,
      CompletedPart.new_of_valid request.partNumber hblank]
    rfl
  · rw [fragmentsLen_completedPart _ rfl hun, hsize]
    simp only [CompletedPart.number]
    omega

/-! ## The size of the document -/

theorem length_decimal {i : Nat} (h : i < 100000) :
    (decimal i).length =
      1 + (if 10 ≤ i then 1 else 0) + (if 100 ≤ i then 1 else 0) +
      (if 1000 ≤ i then 1 else 0) + (if 10000 ≤ i then 1 else 0) := by
  have hle : ∀ k, 0 < k → ((decimal i).length ≤ k ↔ i < 10 ^ k) := fun k hk =>
    Nat.length_toDigits_le_iff (by decide) hk
  have h0 : 0 < (decimal i).length := Nat.length_toDigits_pos
  have h1 := hle 1 (by decide)
  have h2 := hle 2 (by decide)
  have h3 := hle 3 (by decide)
  have h4 := hle 4 (by decide)
  have h5 := hle 5 (by decide)
  norm_num at h1 h2 h3 h4 h5
  split_ifs <;> omega

theorem sum_decimal_lengths : ∀ n : Nat, n ≤ 10000 →
    ((List.range n).map fun i => (decimal (i + 1)).length).sum =
      n + (n - 9) + (n - 99) + (n - 999) + (n - 9999)
  | 0, _ => rfl
  | n + 1, h => by
      rw [List.range_succ, List.map_append, List.sum_append,
        sum_decimal_lengths n (by omega),
        List.map_singleton, List.sum_singleton, length_decimal (by omega)]
      split_ifs <;> omega

theorem sum_map_add_const {α : Type} (f : α → Nat) (c : Nat) : ∀ xs : List α,
    (xs.map fun x => f x + c).sum = (xs.map f).sum + xs.length * c
  | [] => by simp
  | x :: xs => by
      simp only [List.map_cons, List.sum_cons, sum_map_add_const f c xs,
        List.length_cons]
      ring

/-- The length of the document of `n` parts whose checksum elements take `cost`
bytes each. -/
def documentLen (n cost : Nat) : Nat :=
  51 + (n + (n - 9) + (n - 99) + (n - 999) + (n - 9999)) + n * (85 + cost)

theorem documentLen_le_iff {algorithm : Option ChecksumAlgorithm}
    (h : algorithm ≠ some .sha1) {n : Nat} (hn : n ≤ 10000) :
    documentLen n (checksumCost algorithm) ≤ defaultMaxXmlResponseSize ↔
      n ≤ maximumParts algorithm := by
  unfold documentLen defaultMaxXmlResponseSize
  cases algorithm with
  | none =>
      simp only [checksumCost, maximumParts]
      omega
  | some algorithm =>
      cases algorithm with
      | sha1 => exact absurd rfl h
      | crc32 =>
          simp only [checksumCost, maximumParts]
          omega
      | crc32c =>
          simp only [checksumCost, maximumParts]
          omega
      | crc64Nvme =>
          simp only [checksumCost, maximumParts]
          omega
      | sha256 =>
          simp only [checksumCost, maximumParts]
          omega

theorem len_le_fragmentsLen {f : Str} :
    ∀ {fragments : List Str}, f ∈ fragments →
    Str.len f ≤ fragmentsLen fragments
  | g :: rest, h => by
      have hcons :
          fragmentsLen (g :: rest) = Str.len g + fragmentsLen rest := by
        simp [fragmentsLen]
      rcases List.mem_cons.mp h with rfl | h
      · omega
      · have := len_le_fragmentsLen h
        omega

theorem mapM_ok {α β ε : Type} {f : α → Except ε β} {P : α → β → Prop} :
    ∀ {l : List α},
    (∀ x ∈ l, ∃ y, f x = .ok y ∧ P x y) → ∃ ys, l.mapM f = .ok ys ∧
    List.Forall₂ P l ys
  | [], _ => ⟨[], rfl, List.Forall₂.nil⟩
  | x :: xs, h => by
      obtain ⟨y, hy, hp⟩ := h x (by simp)
      obtain ⟨ys, hys, hps⟩ := mapM_ok (l := xs) fun x hx => h x (by simp [hx])
      refine ⟨y :: ys, ?_, List.Forall₂.cons hp hps⟩
      rw [List.mapM_cons, hy, hys]
      rfl

theorem map_eq_of_forall₂ {α β γ : Type} {P : α → β → Prop} {f : β → γ}
    {g : α → γ} {xs : List α} {ys : List β} (h : List.Forall₂ P xs ys)
    (hfg : ∀ x y, P x y → f y = g x) :
    ys.map f = xs.map g := by
  induction h with
  | nil => rfl
  | cons hp _ ih => rw [List.map_cons, List.map_cons, hfg _ _ hp, ih]

theorem completion_of_numbers (key : ObjectKey) (uploadId : UploadId)
    {parts : List CompletedPart} {n : Nat} (hpos : 0 < n)
    (hnumbers : parts.map CompletedPart.number = (List.range n).map (· + 1)) :
    CompleteMultipartUploadRequest.new key uploadId parts =
      .ok ⟨key, uploadId, parts, HeaderMap.new⟩ := by
  have hsorted : Lib.KeySorted CompletedPart.number parts := by
    unfold Lib.KeySorted
    rw [← List.pairwise_map (f := CompletedPart.number) (R := (· < ·)),
      hnumbers,
      List.pairwise_map]
    exact List.pairwise_lt_range.imp fun h => by omega
  have hne : parts ≠ [] := by
    rintro rfl
    have := congrArg List.length hnumbers
    simp at this
    omega
  exact CompleteMultipartUploadRequest.new_of_upload
    ⟨key, uploadId, parts, hsorted⟩ hne

/-! ## The bound -/

section Bound

variable {sha : Sha256} {context : PartUploadContext} {n : Nat}
  {reply : Nat → HeaderMap}

/-- The completed parts of an answered upload, their request, and the size of
its document. -/
theorem completionDocument_len (hk : 0 < context.partSize)
    (hcount : context.source.partCount context.partSize = .ok n)
    (halgorithm : context.checksumAlgorithm ≠ some .sha1)
    (hreply : ∀ i request, preparePart sha context i = .ok request → i ≤ n →
      Answered request (reply i)) :
    ∃ parts,
      (List.range n).mapM
        (fun i => partResult (i + 1) (.response (reply (i + 1)))) = .ok parts ∧
      CompleteMultipartUploadRequest.new context.key context.uploadId parts =
        .ok ⟨context.key, context.uploadId, parts, HeaderMap.new⟩ ∧
      fragmentsLen (completeDocument parts) =
        documentLen n (checksumCost context.checksumAlgorithm) := by
  obtain ⟨hpos, hmax, hlast, -⟩ :=
    PreparedMultipartSource.partCount_ok hk hcount
  have hpart :
      ∀ i ∈ List.range n, ∃ p, partResult (i + 1) (.response (reply (i + 1))) =
        .ok p ∧
      p.number = i + 1 ∧ fragmentsLen (completedPartDocument p) =
        (decimal (i + 1)).length +
            (85 + checksumCost context.checksumAlgorithm) := by
    intro i hi
    have hlt : i < n := List.mem_range.mp hi
    have hinside :
        (i + 1 - 1) * context.partSize < context.source.content.length :=
      lt_of_le_of_lt (Nat.mul_le_mul_right _ (by omega)) hlast
    obtain ⟨checksum, hsum, hw, hcost⟩ := partChecksum_spec sha halgorithm
      (Lib.piece context.partSize context.source.content (i + 1 - 1))
    have hrequest : preparePart sha context (i + 1) =
        .ok ⟨context.key, context.uploadId, ⟨i + 1, by omega, by omega⟩,
          Lib.piece context.partSize context.source.content (i + 1 - 1),
            checksum,
          context.headers⟩ := by
      unfold preparePart
      rw [PreparedMultipartSource.readPart_eq (by omega) hinside,
        PartNumber.new_of_range (n := i + 1) (by omega) (by omega)]
      simp only [hsum]
    obtain ⟨p, hp, hnum, hsize⟩ :=
      partResult_of_answered hw (hreply _ _ hrequest (by omega))
    dsimp only at hsize
    rw [hcost] at hsize
    exact ⟨p, hp, hnum, by omega⟩
  obtain ⟨parts, hparts, hall⟩ := mapM_ok hpart
  have hnumbers : parts.map CompletedPart.number = (List.range n).map (· + 1) :=
    map_eq_of_forall₂ hall fun _ _ h => h.1
  have hsizes : (parts.map fun p => fragmentsLen (completedPartDocument p)) =
      (List.range n).map fun i =>
        (decimal (i + 1)).length +
            (85 + checksumCost context.checksumAlgorithm) :=
    map_eq_of_forall₂ hall fun _ _ h => h.2
  refine ⟨parts, hparts, completion_of_numbers _ _ hpos hnumbers, ?_⟩
  rw [len_completeDocument, hsizes, sum_map_add_const,
    sum_decimal_lengths n hmax, List.length_range,
    documentLen]
  omega

theorem completionDocument_serialize (hk : 0 < context.partSize)
    (hcount : context.source.partCount context.partSize = .ok n)
    (halgorithm : context.checksumAlgorithm ≠ some .sha1)
    (hreply : ∀ i request, preparePart sha context i = .ok request → i ≤ n →
      Answered request (reply i)) :
    ∃ parts request,
      (List.range n).mapM
        (fun i => partResult (i + 1) (.response (reply (i + 1)))) = .ok parts ∧
      CompleteMultipartUploadRequest.new context.key context.uploadId parts =
        .ok request ∧
      serializeCompleteMultipartUpload request defaultMaxXmlResponseSize =
        if n ≤ maximumParts context.checksumAlgorithm then
          .ok (Lib.utf8 (completeDocument parts).flatten)
        else .error (.oversized 1048577 1048576) := by
  obtain ⟨parts, hparts, hrequest, hlen⟩ :=
    completionDocument_len hk hcount halgorithm hreply
  have hmax : n ≤ 10000 := (PreparedMultipartSource.partCount_ok hk hcount).2.1
  refine ⟨parts, _, hparts, hrequest, ?_⟩
  have hcost : checksumCost context.checksumAlgorithm ≤ 77 := by
    unfold checksumCost
    split <;> omega
  have hmul : n * (85 + checksumCost context.checksumAlgorithm) ≤ 10000 * 162 :=
    Nat.mul_le_mul hmax (by omega)
  have hfragment : ∀ f ∈ completeDocument parts, Str.len f < 2 ^ 63 := by
    intro f hf
    refine lt_of_le_of_lt (len_le_fragmentsLen hf) ?_
    rw [hlen, documentLen]
    omega
  have hiff := documentLen_le_iff halgorithm hmax
  rw [← hlen, fragmentsLen] at hiff
  rw [serializeCompleteMultipartUpload,
    serializeBounded_eq (by decide) hfragment]
  by_cases hfits : n ≤ maximumParts context.checksumAlgorithm
  · rw [if_pos hfits, if_pos (hiff.mpr hfits)]
  · rw [if_neg hfits, if_neg fun h => hfits (hiff.mp h)]
    rfl

/-- **When the completion document fits.**  For an upload whose parts were all
answered, the document of the completed parts is refused as oversized exactly
when there are more parts than `maximumParts`, and serialized otherwise. -/
theorem completionDocument_fits_iff (options : MultipartOptions)
    (hsize : context.partSize = options.partSize)
    (hcount : context.source.partCount options.partSize = .ok n)
    (halgorithm : context.checksumAlgorithm ≠ some .sha1)
    (hreply : ∀ i request, preparePart sha context i = .ok request → i ≤ n →
      Answered request (reply i)) :
    ∃ parts request,
      (List.range n).mapM
        (fun i => partResult (i + 1) (.response (reply (i + 1)))) = .ok parts ∧
      CompleteMultipartUploadRequest.new context.key context.uploadId parts =
        .ok request ∧
      ((∀ actual maximum,
        serializeCompleteMultipartUpload request defaultMaxXmlResponseSize ≠
          .error (.oversized actual maximum)) ↔
          n ≤ maximumParts context.checksumAlgorithm) ∧
      ((∃ document,
        serializeCompleteMultipartUpload request defaultMaxXmlResponseSize =
          .ok document) ↔ n ≤ maximumParts context.checksumAlgorithm) := by
  have hk : 0 < context.partSize := by
    have := options.partSize_ge
    rw [hsize]
    unfold minPartSize at this
    omega
  obtain ⟨parts, request, hparts, hrequest, hserialize⟩ :=
    completionDocument_serialize hk (hsize ▸ hcount) halgorithm hreply
  refine ⟨parts, request, hparts, hrequest, ?_⟩
  rw [hserialize]
  by_cases hfits : n ≤ maximumParts context.checksumAlgorithm
  · simp [hfits]
  · simp [hfits]

end Bound

/-! ## Two uploads -/

section Uploads

/-- A header value holding a text of visible characters. -/
def visibleValue (s : Str) : HeaderValue :=
  (HeaderValue.fromStr s).getD ⟨[], rfl⟩

theorem visibleValue_toStr {s : Str}
    (h : ∀ c ∈ s, 32 ≤ c.toNat ∧ c.toNat ≤ 126) :
    (visibleValue s).toStr = some s := by
  have hascii : ∀ c ∈ s, c.toNat ≤ 127 := fun c hc => by
    have := h c hc
    omega
  have hbyte : ∀ c ∈ s, isHeaderValueByte (UInt8.ofNat c.toNat) = true ∧
      isVisibleByte (UInt8.ofNat c.toNat) = true := by
    have hall : ∀ n < 127, 32 ≤ n → isHeaderValueByte (UInt8.ofNat n) = true ∧
        isVisibleByte (UInt8.ofNat n) = true := by decide
    intro c hc
    have := h c hc
    exact hall c.toNat (by omega) (by omega)
  have hvalid : (Lib.utf8 s).all isHeaderValueByte = true := by
    rw [utf8_ascii hascii, List.all_map, List.all_eq_true]
    exact fun c hc => (hbyte c hc).1
  have hvisible : (Lib.utf8 s).all isVisibleByte = true := by
    rw [utf8_ascii hascii, List.all_map, List.all_eq_true]
    exact fun c hc => (hbyte c hc).2
  simp only [visibleValue, HeaderValue.fromStr, hvalid, dif_pos,
    Option.getD_some, HeaderValue.toStr,
    hvisible, if_true, asciiText_utf8 hascii]

def zeroTag : Str := '"' :: (List.replicate 32 '0' ++ ['"'])

theorem etagName_nonempty : "etag".toList ≠ [] := by decide

theorem etagName_token : "etag".toList.all isHeaderNameChar = true := by decide

def etagName : HeaderName := ⟨"etag".toList, etagName_nonempty, etagName_token⟩
def crc32Name : HeaderName :=
  ⟨"x-amz-checksum-crc32".toList, by decide, by decide⟩

/-- The response of a service to a part: a tag, and the CRC32 it was sent. -/
def answerHeaders (crc32 : Option Str) : HeaderMap :=
  let tagged := HeaderMap.new.insert etagName (visibleValue zeroTag)
  match crc32 with
  | none => tagged
  | some text => tagged.insert crc32Name (visibleValue text)

theorem answered_answerHeaders {request : UploadPartRequest}
    (hcrc : HoldsDigest 4 request.checksum.crc32)
    (hothers : request.checksum = { crc32 := request.checksum.crc32 }) :
    Answered request (answerHeaders request.checksum.crc32) := by
  have hzero : (visibleValue zeroTag).toStr = some zeroTag := by
    refine visibleValue_toStr fun c hc => ?_
    simp only [zeroTag, List.mem_cons, List.mem_append, List.mem_replicate,
      List.not_mem_nil,
      or_false] at hc
    rcases hc with rfl | ⟨-, rfl⟩ | rfl <;> decide
  generalize hc : request.checksum.crc32 = crc at hcrc hothers
  have hget : ∀ name, (answerHeaders crc).get name =
      if name = crc32Name.text then crc.map visibleValue
      else if name = etagName.text then some (visibleValue zeroTag)
          else none := by
    intro name
    cases crc with
    | none =>
        rw [answerHeaders, HeaderMap.get_insert, HeaderMap.get_new,
          Option.map_none]
        by_cases hname : name = crc32Name.text
        · rw [if_pos hname, hname, if_neg (by decide)]
        · rw [if_neg hname]
    | some text =>
        rw [answerHeaders, HeaderMap.get_insert, HeaderMap.get_insert,
          HeaderMap.get_new,
          Option.map_some]
  have hcrcText : ∀ text, crc = some text →
      (visibleValue text).toStr = some text := by
    rintro text rfl
    obtain ⟨bs, -, rfl⟩ := hcrc
    refine visibleValue_toStr fun c hc => ?_
    have := base64Encode_ascii c hc
    simp only [isAsciiControl, Bool.or_eq_false_iff, decide_eq_false_iff_not,
      beq_eq_false_iff_ne]
      at this
    omega
  have hhex : ∀ c ∈ List.replicate 32 '0', isHexDigit c = true := by
    intro c hc
    obtain rfl := List.eq_of_mem_replicate hc
    decide
  refine ⟨⟨List.replicate 32 '0', rfl, hhex, ?_⟩, ?_, ?_, ?_, ?_, ?_⟩
  · unfold HeaderMap.Echoes
    rw [hget, if_neg (by decide), if_pos (by decide), Option.map_some, hzero]
    rfl
  · unfold HeaderMap.Echoes
    rw [hget, hc, if_pos (by decide)]
    cases crc with
    | none => rfl
    | some text => simp [hcrcText text rfl]
  all_goals
    unfold HeaderMap.Echoes
    rw [hget, hothers, if_neg (by decide), if_neg (by decide)]
    rfl

theorem zeroKey_nonempty : "key".toList ≠ [] := by decide

theorem zeroKey_bounded : Str.len "key".toList ≤ maxObjectKeyBytes := by decide

theorem zeroUploadId_nonempty : "upload".toList ≠ [] := by decide

theorem zeroUploadId_bounded : Str.len "upload".toList ≤ 2048 := by decide

theorem zeroUploadId_plain :
    ("upload".toList.all fun c => !(c.toNat < 32 || c.toNat == 127)) =
      true := by decide

/-- An upload of zero bytes, in parts of the smallest size. -/
def zeroUpload (length : Nat) (h : length < 2 ^ 64)
    (algorithm : Option ChecksumAlgorithm) :
    PartUploadContext where
  key := ⟨"key".toList, zeroKey_nonempty, zeroKey_bounded⟩
  uploadId :=
    ⟨"upload".toList, zeroUploadId_nonempty, zeroUploadId_bounded,
      zeroUploadId_plain⟩
  source := .bytes ⟨List.replicate length 0, zeroBytes_bounded h⟩
  partSize := minPartSize
  checksumAlgorithm := algorithm
  headers := HeaderMap.new

theorem length_zeroUpload (length : Nat) (h : length < 2 ^ 64)
    (algorithm : Option ChecksumAlgorithm) :
    (zeroUpload length h algorithm).source.content.length = length :=
  List.length_replicate (a := (0 : UInt8))

/-- The answer of the service to every part of an upload. -/
def answers (context : PartUploadContext) (i : Nat) : HeaderMap :=
  match preparePart standardSha256 context i with
  | .ok request => answerHeaders request.checksum.crc32
  | .error _ => HeaderMap.new

/-- The service that answers with a tag and the CRC32 it was sent answers every
part of an upload that sends no other checksum. -/
theorem answered_answers {context : PartUploadContext}
    (h : context.checksumAlgorithm = none ∨
      context.checksumAlgorithm = some .crc32) (i : Nat)
    (request : UploadPartRequest)
    (hrequest : preparePart standardSha256 context i = .ok request) :
    Answered request (answers context i) := by
  have hsum := (preparePart_ok hrequest).2.2
  simp only [answers, hrequest]
  rcases h with h | h
  · rw [h] at hsum
    have hchecksum : request.checksum = {} := (Except.ok.inj hsum).symm
    refine answered_answerHeaders ?_ ?_
    · rw [hchecksum]
      trivial
    · rw [hchecksum]
  · rw [h] at hsum
    have hchecksum := (Except.ok.inj hsum).symm
    refine answered_answerHeaders ?_ ?_
    · rw [hchecksum]
      exact ⟨_, length_toBeBytes _ _, rfl⟩
    · rw [hchecksum]

/-- A byte more than one part holds, with a CRC32 each: two parts, and their
document fits. -/
theorem completionDocument_fits_two_parts :
    (zeroUpload (minPartSize + 1) (by decide) (some .crc32)).source.partCount
      minPartSize = .ok 2 ∧
    ∃ parts request,
      (List.range 2).mapM (fun i => partResult (i + 1) (.response
        (answers (zeroUpload (minPartSize + 1) (by decide) (some .crc32))
          (i + 1)))) = .ok parts ∧
      CompleteMultipartUploadRequest.new
        (zeroUpload (minPartSize + 1) (by decide) (some .crc32)).key
        (zeroUpload (minPartSize + 1) (by decide) (some .crc32)).uploadId
          parts = .ok request ∧
      ∃ document,
        serializeCompleteMultipartUpload request defaultMaxXmlResponseSize =
        .ok document := by
  have hcount :
      (zeroUpload (minPartSize + 1) (by decide) (some .crc32)).source.partCount
      minPartSize = .ok 2 :=
    PreparedMultipartSource.partCount_of_length (length_zeroUpload ..)
      (by decide) (by decide)
  obtain ⟨parts, request, hparts, hrequest, -, hfits⟩ :=
    @completionDocument_fits_iff standardSha256
      (zeroUpload (minPartSize + 1) (by decide) (some .crc32)) 2
      (answers (zeroUpload (minPartSize + 1) (by decide) (some .crc32)))
      ⟨minPartSize, 1, by decide, by decide, by decide, by decide⟩ rfl hcount
        (by simp [zeroUpload])
      fun i request h _ => answered_answers (Or.inr rfl) i request h
  have hfew : 2 ≤ maximumParts
      (zeroUpload (minPartSize + 1) (by decide)
          (some .crc32)).checksumAlgorithm :=
    show 2 ≤ 8200 by decide
  exact ⟨hcount, parts, request, hparts, hrequest, hfits.mpr hfew⟩

/-- Ten thousand parts with a CRC32 each: every part is answered, and the
document of the completed parts is refused. -/
theorem completionDocument_oversized_ten_thousand_parts :
    (zeroUpload (10000 * minPartSize) (by decide)
      (some .crc32)).source.partCount minPartSize
      = .ok 10000 ∧
    (∀ i request,
      preparePart standardSha256
        (zeroUpload (10000 * minPartSize) (by decide) (some .crc32)) i
        = .ok request →
      Answered request
        (answers (zeroUpload (10000 * minPartSize) (by decide) (some .crc32))
          i)) ∧
    ∃ parts request,
      (List.range 10000).mapM (fun i => partResult (i + 1) (.response
        (answers (zeroUpload (10000 * minPartSize) (by decide) (some .crc32))
          (i + 1)))) = .ok parts ∧
      CompleteMultipartUploadRequest.new
        (zeroUpload (10000 * minPartSize) (by decide) (some .crc32)).key
        (zeroUpload (10000 * minPartSize) (by decide) (some .crc32)).uploadId
          parts = .ok request ∧
      serializeCompleteMultipartUpload request defaultMaxXmlResponseSize =
        .error (.oversized 1048577 1048576) := by
  have hcount :
      (zeroUpload (10000 * minPartSize) (by decide)
        (some .crc32)).source.partCount
      minPartSize = .ok 10000 :=
    PreparedMultipartSource.partCount_of_length (length_zeroUpload ..)
      (by decide) (by decide)
  have hmany : ¬ 10000 ≤ maximumParts
      (zeroUpload (10000 * minPartSize) (by decide)
          (some .crc32)).checksumAlgorithm :=
    show ¬ 10000 ≤ 8200 by decide
  have hanswered := fun i request => @answered_answers
    (zeroUpload (10000 * minPartSize) (by decide) (some .crc32))
      (Or.inr rfl) i request
  obtain ⟨parts, request, hparts, hrequest, hserialize⟩ :=
    @completionDocument_serialize standardSha256
      (zeroUpload (10000 * minPartSize) (by decide) (some .crc32)) 10000
      (answers (zeroUpload (10000 * minPartSize) (by decide) (some .crc32)))
      (show 0 < minPartSize by decide) hcount (by simp [zeroUpload])
      fun i request h _ => hanswered i request h
  refine ⟨hcount, hanswered, parts, request, hparts, hrequest, ?_⟩
  rw [hserialize, if_neg hmany]

end Uploads

end S3Wire
