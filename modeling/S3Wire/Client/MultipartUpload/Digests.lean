/-
# `S3Wire.Client.MultipartUpload.Digests` — checksums cross the wire as digests

`src/client/multipart/headers.rs` checks a checksum in both directions without
decoding it. What the check lets pass is the base64 of a digest of the right
length (`validBase64Digest_iff`), so: what the client calculates it can send,
whatever the headers of the caller are, as long as they leave the names free
(`checksumHeaders_accepts`); and what it has accepted from a response are
digests (`responseChecksums_wire`).
-/
import S3Wire.Client.MultipartUpload.CompletionSize
import S3Wire.Client.Operation.Headers
import S3Wire.Operation.Calculation

namespace S3Wire

/-! ## Calculated checksums -/

theorem calculate_wire {sha : Sha256} {algorithm : ChecksumAlgorithm}
    {bytes : Bytes} {checksum : Checksum}
    (h : Checksum.calculate sha algorithm bytes = .ok checksum) :
    WireChecksum checksum := by
  cases algorithm with
  | crc32 =>
      cases h
      exact ⟨⟨_, length_toBeBytes _ _, rfl⟩, trivial, trivial, trivial, trivial⟩
  | crc32c =>
      cases h
      exact ⟨trivial, ⟨_, length_toBeBytes _ _, rfl⟩, trivial, trivial, trivial⟩
  | crc64Nvme =>
      cases h
      exact ⟨trivial, trivial, ⟨_, length_toBeBytes _ _, rfl⟩, trivial, trivial⟩
  | sha1 => cases h
  | sha256 =>
      cases h
      exact ⟨trivial, trivial, trivial, trivial, ⟨_, sha.length_digest _, rfl⟩⟩

/-! ## Request headers -/

section Request

variable {headers : HeaderMap} {name : HeaderName} {value : Option Str}
  {digestLength : Nat}

theorem fromStr_base64 (bs : Bytes) :
    ∃ value, HeaderValue.fromStr (Lib.base64Encode bs) = some value := by
  have hascii : ∀ c ∈ Lib.base64Encode bs, c.toNat ≤ 127 :=
    fun c hc => (base64Encode_ascii c hc).1
  have hbyte : ∀ c : Char, c.toNat ≤ 127 → isAsciiControl c = false →
      isHeaderValueByte (UInt8.ofNat c.toNat) = true := by
    intro c hc
    exact Lib.forall_ascii
      (P := fun c => isAsciiControl c = false →
        isHeaderValueByte (UInt8.ofNat c.toNat) = true)
      (by decide +kernel) hc
  have hvalid : (Lib.utf8 (Lib.base64Encode bs)).all isHeaderValueByte =
      true := by
    rw [utf8_ascii hascii]
    refine List.all_eq_true.mpr ?_
    intro b hb
    obtain ⟨c, hc, rfl⟩ := List.mem_map.mp hb
    exact hbyte c (hascii c hc) (base64Encode_ascii c hc).2
  exact ⟨_, dif_pos hvalid⟩

/-- A digest goes in under a name that is free, and takes no other name. -/
theorem insertChecksum_accepts (hpos : 0 < digestLength)
    (hdigest : HoldsDigest digestLength value)
    (hfree : value.isSome = true → headers.containsKey name.text = false) :
    ∃ headers', insertChecksum headers name value digestLength = .ok headers' ∧
      ∀ k, k ≠ name.text → headers'.containsKey k = headers.containsKey k := by
  cases value with
  | none => exact ⟨headers, rfl, fun _ _ => rfl⟩
  | some text =>
      obtain ⟨bs, hbs, rfl⟩ := hdigest
      obtain ⟨v, hv⟩ := fromStr_base64 bs
      have hvalid := (validBase64Digest_iff hpos).mpr ⟨bs, hbs, rfl⟩
      refine ⟨headers.insert name v, ?_, ?_⟩
      · rw [insertChecksum, hvalid, insertHeader, hfree rfl, hv]
        rfl
      · intro k hk
        rw [HeaderMap.containsKey_insert, beq_eq_false_iff_ne.mpr hk,
          Bool.false_or]

theorem free_of_entries {text : Str} (hname : NameOf name text)
    (h : ∀ header ∈ optionalEntry text value, headers.containsKey header.key =
      false) :
    value.isSome = true → headers.containsKey name.text = false := by
  intro hsome
  obtain ⟨v, rfl⟩ := Option.isSome_iff_exists.mp hsome
  rw [hname.folded]
  exact h ⟨text, v⟩ (List.mem_singleton.mpr rfl)

/-- Digests are accepted next to headers that leave the client's names and those
of the checksum free. -/
theorem checksumHeaders_accepts {checksum : Checksum}
    (hwire : WireChecksum checksum)
    (hunreserved : ∀ name ∈ protectedHeaders, headers.containsKey name = false)
    (hfree : ∀ header ∈ checksum.entries, headers.containsKey header.key =
      false) :
    ∃ headers', checksumHeaders checksum headers = .ok headers' := by
  have hcaller : requestHeaders headers = .ok headers := by
    rw [requestHeaders, List.find?_eq_none.mpr]
    intro name hname
    rw [hunreserved name hname]
    exact Bool.false_ne_true
  simp only [Checksum.entries, List.forall_mem_append] at hfree
  obtain ⟨free₁, free₂, free₃, free₄, free₅⟩ := hfree
  have free₁ := free_of_entries (.fromStatic (by decide) (by decide)) free₁
  have free₂ := free_of_entries (.fromStatic (by decide) (by decide)) free₂
  have free₃ := free_of_entries (.fromStatic (by decide) (by decide)) free₃
  have free₄ := free_of_entries (.fromStatic (by decide) (by decide)) free₄
  have free₅ := free_of_entries (.fromStatic (by decide) (by decide)) free₅
  -- each insertion leaves the names of the later ones as they were
  obtain ⟨headers₁, h₁, kept₁⟩ :=
    insertChecksum_accepts (Nat.zero_lt_succ 3) hwire.crc32 free₁
  obtain ⟨headers₂, h₂, kept₂⟩ :=
    @insertChecksum_accepts headers₁ _ _ _ (Nat.zero_lt_succ 3) hwire.crc32c
    fun hsome => (kept₁ _ (by decide)).trans (free₂ hsome)
  obtain ⟨headers₃, h₃, kept₃⟩ :=
    @insertChecksum_accepts headers₂ _ _ _ (Nat.zero_lt_succ 7) hwire.crc64Nvme
    fun hsome =>
      (kept₂ _ (by decide)).trans ((kept₁ _ (by decide)).trans (free₃ hsome))
  obtain ⟨headers₄, h₄, kept₄⟩ :=
    @insertChecksum_accepts headers₃ _ _ _ (Nat.zero_lt_succ 19) hwire.sha1
    fun hsome =>
      (kept₃ _ (by decide)).trans
        ((kept₂ _ (by decide)).trans
          ((kept₁ _ (by decide)).trans (free₄ hsome)))
  obtain ⟨headers₅, h₅, -⟩ :=
    @insertChecksum_accepts headers₄ _ _ _ (Nat.zero_lt_succ 31) hwire.sha256
    fun hsome =>
      (kept₄ _ (by decide)).trans
        ((kept₃ _ (by decide)).trans ((kept₂ _ (by decide)).trans
      ((kept₁ _ (by decide)).trans (free₅ hsome))))
  refine ⟨headers₅, ?_⟩
  rw [checksumHeaders, hcaller]
  show (insertChecksum headers _ checksum.crc32 4 >>= _) = _
  rw [h₁]
  show (insertChecksum headers₁ _ checksum.crc32c 4 >>= _) = _
  rw [h₂]
  show (insertChecksum headers₂ _ checksum.crc64Nvme 8 >>= _) = _
  rw [h₃]
  show (insertChecksum headers₃ _ checksum.sha1 20 >>= _) = _
  rw [h₄]
  exact h₅

end Request

/-! ## Response headers -/

theorem optionalChecksumHeader_wire {headers : HeaderMap} {name : Str}
    {digestLength : Nat} {value : Option Str}
    (h : optionalChecksumHeader headers name digestLength = .ok value) :
    HoldsDigest digestLength value := by
  rw [optionalChecksumHeader] at h
  split at h
  · cases h
  · split at h
    · cases h
    · next hvalid =>
        cases h
        cases value with
        | none => trivial
        | some text =>
            rw [Option.any_some, Bool.not_eq_true', Bool.not_eq_false] at hvalid
            exact exists_of_validBase64Digest hvalid

/-- What is accepted from a response are digests of their algorithms'
lengths. -/
theorem responseChecksums_wire {headers : HeaderMap} {checksum : Checksum}
    (h : responseChecksums headers = .ok checksum) : WireChecksum checksum := by
  obtain ⟨crc32, h₁, h⟩ := Lib.bind_ok h
  obtain ⟨crc32c, h₂, h⟩ := Lib.bind_ok h
  obtain ⟨crc64Nvme, h₃, h⟩ := Lib.bind_ok h
  obtain ⟨sha1, h₄, h⟩ := Lib.bind_ok h
  obtain ⟨sha256, h₅, h⟩ := Lib.bind_ok h
  cases h
  exact ⟨optionalChecksumHeader_wire h₁, optionalChecksumHeader_wire h₂,
    optionalChecksumHeader_wire h₃,
    optionalChecksumHeader_wire h₄, optionalChecksumHeader_wire h₅⟩

/-! ## Both directions -/

/-- The check of a digest is its encoding; so calculated checksums are accepted
next to headers that do not collide with them, and accepted response headers are
digests. -/
theorem checksums_cross :
    (∀ (digestLength : Nat) (value : Str), 0 < digestLength →
      (validBase64Digest value digestLength = true ↔
        ∃ bs : Bytes, bs.length = digestLength ∧ value = Lib.base64Encode bs)) ∧
    (∀ sha algorithm bytes checksum,
      (Checksum.calculate sha algorithm bytes = .ok checksum ∨
        Checksum.calculateCooperatively sha algorithm bytes = .ok checksum) →
      ∀ headers : HeaderMap,
        (∀ name ∈ protectedHeaders, headers.containsKey name = false) →
        (∀ header ∈ checksum.entries, headers.containsKey header.key = false) →
          ∃ headers', checksumHeaders checksum headers = .ok headers') ∧
    ∀ headers checksum, responseChecksums headers = .ok checksum →
    WireChecksum checksum := by
  refine ⟨?_, ?_, ?_⟩
  · intro digestLength value hpos
    exact validBase64Digest_iff hpos
  · intro sha algorithm bytes checksum h headers hunreserved hfree
    rw [Checksum.calculateCooperatively_eq, or_self] at h
    exact checksumHeaders_accepts (calculate_wire h) hunreserved hfree
  · intro headers checksum h
    exact responseChecksums_wire h

/-- A header of a caller. -/
def callerHeaders : HeaderMap :=
  HeaderMap.new.insert ⟨"x-amz-meta-a".toList, by decide, by decide⟩
    ⟨Lib.utf8 "b", by decide⟩

theorem crc32Header_ne : "x-amz-checksum-crc32".toList ≠ [] := by decide

theorem crc32Header_token :
    "x-amz-checksum-crc32".toList.all isHeaderNameChar = true := by decide

theorem digitsCrc_valid :
    (Lib.utf8 "y/Q5Jg==".toList).all isHeaderValueByte = true := by decide

/-- A response with the CRC of the nine digits. -/
def digitsResponse : HeaderMap :=
  HeaderMap.new.insert
    ⟨"x-amz-checksum-crc32".toList, crc32Header_ne, crc32Header_token⟩
    ⟨Lib.utf8 "y/Q5Jg==".toList, digitsCrc_valid⟩

/-- The CRC of the nine digits is sent next to a header of the caller, and read
in a response. -/
theorem checksums_cross_digits :
    (∃ bs : Bytes, bs.length = 4 ∧ "y/Q5Jg==".toList = Lib.base64Encode bs) ∧
      (∃ headers', checksumHeaders { crc32 := some "y/Q5Jg==" } callerHeaders =
        .ok headers') ∧
      WireChecksum { crc32 := some "y/Q5Jg==" } := by
  obtain ⟨hvalid, haccepts, hwire⟩ := checksums_cross
  refine ⟨?_, ?_, ?_⟩
  · exact (hvalid 4 "y/Q5Jg==".toList (Nat.zero_lt_succ 3)).mp (by decide)
  · exact haccepts standardSha256 .crc32 (Lib.utf8 "123456789") _
      (.inl (by decide +kernel))
      callerHeaders (by decide) (by decide)
  · exact hwire digitsResponse _ rfl

end S3Wire
