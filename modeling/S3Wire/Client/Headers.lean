/-
# `S3Wire.Client.Headers` — request headers, response headers and checksum headers

`src/client/request/headers.rs` and `src/client/multipart/headers.rs`.

Requests: the client owns seven header names, and every generated header refuses
to replace one the caller supplied.  Responses: a header is text of at most
2,048 visible characters or an error.  Checksums cross this module in both
directions, and in both they must be the padded base64 of a digest of the right
length; the checksums the client calculates are (`validBase64Digest_encode`).
-/
import S3Wire.Http
import S3Wire.Operation.Checksum
import S3Wire.Lib.Percent

namespace S3Wire

/-! ## Request headers -/

/-- `PROTECTED_HEADERS`: what a caller cannot set. -/
def protectedHeaders : List Str :=
  ["host", "authorization", "x-amz-date", "x-amz-security-token",
    "x-amz-content-sha256",
    "content-length", "transfer-encoding"]

/-- A header that the client sets itself. -/
def headerCollision (name : Str) : S3Error :=
  S3Error.configuration ("request header `".toList ++ name ++
    "` conflicts with a generated, signing-owned, or transport-owned header".toList)

/-- The headers of a caller, none of which is protected. -/
def requestHeaders (headers : HeaderMap) : Except S3Error HeaderMap :=
  match protectedHeaders.find? headers.containsKey with
  | some name => .error (headerCollision name)
  | none => .ok headers

/-- A header of the client; it is an error if the caller has set it. -/
def insertHeader (headers : HeaderMap) (name : HeaderName) (value : Str) :
    Except S3Error HeaderMap :=
  if headers.containsKey name.text then .error (headerCollision name.text)
  else
    match HeaderValue.fromStr value with
    | none =>
        .error (S3Error.configuration
          "request contains an invalid header value")
    | some value => .ok (headers.insert name value)

/-- The same for a value that may be absent. -/
def insertOptionalHeader (headers : HeaderMap) (name : HeaderName)
    (value : Option Str) :
    Except S3Error HeaderMap :=
  match value with
  | some value => insertHeader headers name value
  | none => .ok headers

/-- The same for a name that is a text and may be no name. -/
def insertNamedHeader (headers : HeaderMap) (name value : Str) :
    Except S3Error HeaderMap :=
  match HeaderName.fromStr name with
  | none =>
      .error (S3Error.configuration "request contains an invalid header name")
  | some name => insertHeader headers name value

def insertOptionalNamedHeader (headers : HeaderMap) (name : Str)
    (value : Option Str) :
    Except S3Error HeaderMap :=
  match value with
  | some value => insertNamedHeader headers name value
  | none => .ok headers

/-- Headers that pass are passed on as they are, and none of them is the
client's. -/
theorem requestHeaders_ok {headers headers' : HeaderMap}
    (h : requestHeaders headers = .ok headers') :
    headers' = headers ∧ ∀ name ∈ protectedHeaders, headers.containsKey name =
      false := by
  rw [requestHeaders] at h
  split at h
  · cases h
  · next hnone =>
      cases h
      refine ⟨rfl, ?_⟩
      intro name hname
      exact Bool.eq_false_iff.mpr (List.find?_eq_none.mp hnone name hname)

theorem insertHeader_ok {headers headers' : HeaderMap} {name : HeaderName}
    {value : Str} (h : insertHeader headers name value = .ok headers') :
    headers.containsKey name.text = false ∧
      ∃ v, HeaderValue.fromStr value = some v ∧
      headers' = headers.insert name v := by
  rw [insertHeader] at h
  split at h
  · cases h
  · next hfree =>
      split at h
      · cases h
      · next v hv =>
          cases h
          exact ⟨Bool.eq_false_iff.mpr hfree, v, hv, rfl⟩

/-! ## Response headers -/

/-- `u8::is_ascii_control`, on a character. -/
def isAsciiControl (c : Char) : Bool := c.toNat < 32 || c.toNat == 127

/-- The one value of a header, as text. -/
def optionalHeader (headers : HeaderMap) (name : Str) :
    Except S3Error (Option Str) :=
  match headers.get name with
  | none => .ok none
  | some value =>
      match value.toStr.filter fun s =>
          !s.isEmpty && s.len ≤ 2048 && s.all fun c => !isAsciiControl c with
      | some s => .ok (some s)
      | none =>
          .error (S3Error.invalidResponse
            "S3 returned an invalid response header")

/-- A header that must be there. -/
def requiredHeader (headers : HeaderMap) (name missingMessage : Str) :
    Except S3Error Str :=
  match optionalHeader headers name with
  | .error e => .error e
  | .ok none => .error (S3Error.invalidResponse missingMessage)
  | .ok (some value) => .ok value

/-! ## Checksum headers -/

/-- `u8::trailing_zeros`. -/
def trailingZeros8 (n : Nat) : Nat :=
  ((List.range 8).takeWhile fun i => n / 2 ^ i % 2 == 0).length

def isBase64Byte (b : UInt8) : Bool :=
  (65 ≤ b && b ≤ 90) || (97 ≤ b && b ≤ 122) || (48 ≤ b && b ≤ 57) || b == 43 ||
    b == 47

/-- The six bits of a character of the base64 alphabet. -/
def base64Value (b : UInt8) : Option Nat :=
  if 65 ≤ b ∧ b ≤ 90 then some (b.toNat - 65)
  else if 97 ≤ b ∧ b ≤ 122 then some (b.toNat - 97 + 26)
  else if 48 ≤ b ∧ b ≤ 57 then some (b.toNat - 48 + 52)
  else if b = 43 then some 62
  else if b = 47 then some 63
  else none

/-- The text has the length and the shape of an encoded digest. -/
def validBase64Digest (value : Str) (digestLength : Nat) : Bool :=
  let encodedLength := (digestLength + 2) / 3 * 4
  if value.len ≠ encodedLength then false
  else
    let padding :=
      match digestLength % 3 with
      | 0 => 0
      | 1 => 2
      | _ => 1
    let dataLength := encodedLength - padding
    let bytes := Lib.utf8 value
    if !(bytes.take dataLength).all isBase64Byte || !(bytes.drop dataLength).all
      (· == 61) then false
    else
      match bytes[dataLength - 1]?.bind base64Value with
      | none => false
      | some last =>
          match padding with
          | 0 => true
          | 1 => trailingZeros8 last ≥ 2
          | _ => trailingZeros8 last ≥ 4

/-- `insert_checksum`. -/
def insertChecksum (headers : HeaderMap) (name : HeaderName)
    (value : Option Str) (digestLength : Nat) :
    Except S3Error HeaderMap :=
  match value with
  | none => .ok headers
  | some value =>
      if !validBase64Digest value digestLength then
        .error (S3Error.configuration
          "checksum is not valid standard base64 for its algorithm")
      else insertHeader headers name value

/-- A checksum header is a digest of its algorithm, or an error. -/
def optionalChecksumHeader (headers : HeaderMap) (name : Str)
    (digestLength : Nat) :
    Except S3Error (Option Str) :=
  match optionalHeader headers name with
  | .error e => .error e
  | .ok value =>
      if value.any fun value => !validBase64Digest value digestLength then
        .error (S3Error.invalidResponse
          "S3 returned a malformed checksum header")
      else .ok value

/-- The checksums of a response, one for each algorithm. -/
def responseChecksums (headers : HeaderMap) : Except S3Error Checksum := do
  let crc32 ← optionalChecksumHeader headers "x-amz-checksum-crc32" 4
  let crc32c ← optionalChecksumHeader headers "x-amz-checksum-crc32c" 4
  let crc64Nvme ← optionalChecksumHeader headers "x-amz-checksum-crc64nvme" 8
  let sha1 ← optionalChecksumHeader headers "x-amz-checksum-sha1" 20
  let sha256 ← optionalChecksumHeader headers "x-amz-checksum-sha256" 32
  return ⟨crc32, crc32c, crc64Nvme, sha1, sha256⟩

/-! ## The checksums of the client are valid -/

theorem base64Char_facts : ∀ n < 64,
    (Lib.base64Char n).toNat ≤ 127 ∧ isAsciiControl (Lib.base64Char n) = false ∧
      isBase64Byte (UInt8.ofNat (Lib.base64Char n).toNat) = true ∧
      base64Value (UInt8.ofNat (Lib.base64Char n).toNat) = some n := by
  decide

theorem base64Encode_ascii {bs : Bytes} : ∀ c ∈ Lib.base64Encode bs,
    c.toNat ≤ 127 ∧ isAsciiControl c = false := by
  intro c hc
  rw [Lib.base64Encode_eq] at hc
  rcases List.mem_append.mp hc with h | h
  · obtain ⟨n, hn, rfl⟩ := List.mem_map.mp h
    have := base64Char_facts n (Lib.sextet_lt hn)
    exact ⟨this.1, this.2.1⟩
  · obtain rfl := List.eq_of_mem_replicate h
    decide

/-- The octets of an encoded digest: those of its sextets, then the padding. -/
theorem utf8_base64Encode (bs : Bytes) :
    Lib.utf8 (Lib.base64Encode bs) =
      (Lib.sextets bs).map (fun n => UInt8.ofNat (Lib.base64Char n).toNat) ++
        List.replicate (Lib.base64Padding bs.length) 61 := by
  rw [utf8_ascii fun c hc => (base64Encode_ascii c hc).1, Lib.base64Encode_eq,
    List.map_append,
    List.map_map, List.map_replicate]
  rfl

theorem len_base64Encode (bs : Bytes) :
    Str.len (Lib.base64Encode bs) = (bs.length + 2) / 3 * 4 := by
  unfold Str.len
  rw [utf8_ascii fun c hc => (base64Encode_ascii c hc).1, List.length_map,
    Lib.length_base64Encode]

theorem trailingZeros8_ge : ∀ n < 64, (n % 4 = 0 → trailingZeros8 n ≥ 2) ∧
    (n % 16 = 0 → trailingZeros8 n ≥ 4) := by
  decide

theorem validBase64Digest_encode {bs : Bytes} (hne : bs ≠ []) :
    validBase64Digest (Lib.base64Encode bs) bs.length = true := by
  have hpos : 0 < bs.length := List.length_pos_iff.mpr hne
  have hlen :
      (Lib.sextets bs).length =
          (bs.length + 2) / 3 * 4 - Lib.base64Padding bs.length :=
    Lib.length_sextets bs
  have hpadLe : Lib.base64Padding bs.length < (bs.length + 2) / 3 * 4 := by
    unfold Lib.base64Padding
    split <;> omega
  obtain ⟨last, hlast⟩ : ∃ n, (Lib.sextets bs).getLast? = some n := by
    cases h : (Lib.sextets bs).getLast? with
    | none =>
        rw [List.getLast?_eq_none_iff] at h
        rw [h] at hlen
        simp at hlen
        omega
    | some n => exact ⟨n, rfl⟩
  have hlastMem : last ∈ Lib.sextets bs := List.mem_of_getLast? hlast
  have hlt : last < 64 := Lib.sextet_lt hlastMem
  have hzero := Lib.last_sextet hlast
  -- the character in front of the padding is the one of the last sextet
  have hget : (Lib.utf8 (Lib.base64Encode bs))[(Lib.sextets bs).length - 1]? =
      some (UInt8.ofNat (Lib.base64Char last).toNat) := by
    rw [utf8_base64Encode, List.getElem?_append_left (by simp; omega),
      List.getElem?_map,
      ← List.getLast?_eq_getElem?, hlast]
    rfl
  have hpadding : (match bs.length % 3 with
      | 0 => 0
      | 1 => 2
      | _ => 1) = Lib.base64Padding bs.length := rfl
  unfold validBase64Digest
  simp only [len_base64Encode, ne_eq, not_true_eq_false, if_false, hpadding,
    ← hlen, hget]
  rw [utf8_base64Encode]
  have htake :
      ((Lib.sextets bs).map fun n => UInt8.ofNat (Lib.base64Char n).toNat).all
        isBase64Byte
      = true := by
    rw [List.all_eq_true]
    intro b hb
    obtain ⟨n, hn, rfl⟩ := List.mem_map.mp hb
    exact (base64Char_facts n (Lib.sextet_lt hn)).2.2.1
  rw [List.take_left' (by simp), List.drop_left' (by simp), htake]
  simp only [Option.bind_some, (base64Char_facts last hlt).2.2.2]
  have htz := trailingZeros8_ge last hlt
  have hcases : Lib.base64Padding bs.length = 0 ∨
      Lib.base64Padding bs.length = 1 ∨
      Lib.base64Padding bs.length = 2 := by
    unfold Lib.base64Padding
    split <;> simp
  rcases hcases with h | h | h
  · simp [h]
  · rw [h] at hzero ⊢
    simpa using htz.1 (by simpa using hzero)
  · rw [h] at hzero ⊢
    simpa using htz.2 (by simpa using hzero)

/-! ## Only such texts are valid -/

theorem isBase64Byte_group : ∀ b : UInt8, isBase64Byte b = true →
    ∃ n < 64, UInt8.ofNat (Lib.base64Char n).toNat = b :=
  Lib.forall_byte (by decide +kernel)

theorem trailingZeros8_two : ∀ n < 64, trailingZeros8 n ≥ 2 →
    n % 4 = 0 := by decide

theorem trailingZeros8_four : ∀ n < 64, trailingZeros8 n ≥ 4 →
    n % 16 = 0 := by decide

theorem exists_groups : ∀ {bytes : Bytes}, bytes.all isBase64Byte = true →
    ∃ groups : List Nat, (∀ n ∈ groups, n < 64) ∧
      groups.map (fun n => UInt8.ofNat (Lib.base64Char n).toNat) = bytes
  | [], _ => ⟨[], List.forall_mem_nil _, rfl⟩
  | b :: bytes, h => by
      rw [List.all_cons, Bool.and_eq_true] at h
      obtain ⟨n, hn, hb⟩ := isBase64Byte_group b h.1
      obtain ⟨groups, hgroups, hbytes⟩ := exists_groups h.2
      refine ⟨n :: groups, List.forall_mem_cons.mpr ⟨hn, hgroups⟩, ?_⟩
      rw [List.map_cons, hb, hbytes]

/-- What the length, the alphabet, the padding and the last group say
together. -/
theorem exists_of_validBase64Digest {value : Str} {digestLength : Nat}
    (h : validBase64Digest value digestLength = true) :
    ∃ bs : Bytes, bs.length = digestLength ∧ value = Lib.base64Encode bs := by
  have hpadding : (match digestLength % 3 with
      | 0 => 0
      | 1 => 2
      | _ => 1) = Lib.base64Padding digestLength := rfl
  rw [validBase64Digest, hpadding] at h
  dsimp only at h
  split at h
  · cases h
  next hlen =>
  split at h
  · cases h
  next halphabet =>
  have hlength : (Lib.utf8 value).length = (digestLength + 2) / 3 * 4 :=
    not_not.mp hlen
  generalize hdata :
    (digestLength + 2) / 3 * 4 - Lib.base64Padding digestLength =
      dataLength at h halphabet
  have hpadLe := Lib.base64Padding_le digestLength
  have htail :
    (digestLength + 2) / 3 * 4 - dataLength =
      Lib.base64Padding digestLength := by omega
  rw [Bool.or_eq_true, not_or, Bool.not_eq_true', Bool.not_eq_true',
    Bool.not_eq_false, Bool.not_eq_false]
    at halphabet
  obtain ⟨groups, hlt, hgroups⟩ := exists_groups halphabet.1
  -- the octets are those of the groups, and padding
  have hdrop :
      (Lib.utf8 value).drop dataLength =
          List.replicate (Lib.base64Padding digestLength) 61 := by
    rw [List.eq_replicate_iff, List.length_drop, hlength]
    refine ⟨htail, ?_⟩
    intro b hb
    exact eq_of_beq (List.all_eq_true.mp halphabet.2 b hb)
  have hcount : groups.length = dataLength := by
    have htake := congrArg List.length hgroups
    rw [List.length_map, List.length_take, hlength] at htake
    omega
  -- the check of the last group is the condition on its unused bits
  have hlast : ∀ s, groups.getLast? = some s →
      s % 4 ^ Lib.base64Padding digestLength = 0 := by
    intro s hs
    have hs64 : s < 64 := hlt s (List.mem_of_getLast? hs)
    have hne : groups ≠ [] := by
      rintro rfl
      cases hs
    have hdataPos : 0 < groups.length := List.length_pos_iff.mpr hne
    have hbyte :
        (Lib.utf8 value)[dataLength - 1]? =
            some (UInt8.ofNat (Lib.base64Char s).toNat) := by
      have hbelow : dataLength - 1 < dataLength := by omega
      rw [← List.getElem?_take_of_lt hbelow, ← hgroups, List.getElem?_map,
        ← hcount, ← List.getLast?_eq_getElem?, hs]
      rfl
    rw [hbyte, Option.bind_some, (base64Char_facts s hs64).2.2.2] at h
    dsimp only at h
    have hcases : Lib.base64Padding digestLength = 0 ∨
        Lib.base64Padding digestLength = 1 ∨
        Lib.base64Padding digestLength = 2 := by
      unfold Lib.base64Padding
      split <;> simp
    rcases hcases with hp | hp | hp
    · rw [hp, pow_zero, Nat.mod_one]
    · rw [hp] at h ⊢
      exact trailingZeros8_two s hs64 (of_decide_eq_true h)
    · rw [hp] at h ⊢
      exact trailingZeros8_four s hs64 (of_decide_eq_true h)
  obtain ⟨bs, hbs, hsextets⟩ :=
    Lib.exists_sextets digestLength (hcount.trans hdata.symm) hlt hlast
  refine ⟨bs, hbs, ?_⟩
  apply Lib.utf8_injective
  rw [utf8_base64Encode, hsextets, hbs, hgroups, ← hdrop, List.take_append_drop]

/-- A text is valid for a digest of `n` octets exactly when it is the encoding
of `n` octets. -/
theorem validBase64Digest_iff {value : Str} {digestLength : Nat}
    (hpos : 0 < digestLength) :
    validBase64Digest value digestLength = true ↔
      ∃ bs : Bytes, bs.length = digestLength ∧ value = Lib.base64Encode bs := by
  constructor
  · exact exists_of_validBase64Digest
  · rintro ⟨bs, rfl, rfl⟩
    exact validBase64Digest_encode (List.length_pos_iff.mp hpos)

end S3Wire
