/-
# `S3Wire.Client.Operation.CopySource` — the source of a copy, in one header

`copy_source_header` of `src/client/object/headers/request.rs` joins a bucket, a
key and a version with separators.  Two modes of one encoder are used: the key
keeps its slashes, the other two do not.  The separators are where they can be
found again: a bucket has no slash once it is encoded, and neither field has a
question mark.  So `readCopySource` takes the header apart at the first of each,
and decodes the pieces once.
-/
import S3Wire.Client.Operation.Headers
import S3Wire.Client.Query

namespace S3Wire

/-! ## Taking the header apart -/

/-- The path before a separator, and the version behind it. -/
def copySourcePieces (separator rest : Str) : Str × Option Str :=
  match Lib.splitOnceAt separator rest with
  | some (path, versionId) => (path, some versionId)
  | none => (rest, none)

/-- Bucket, key and version: cut at the first `?versionId=` and at the first
slash after the leading one, each piece decoded once. -/
def readCopySource (header : Str) : Option (Str × Str × Option Str) := do
  let rest ← header.dropPrefix? ['/']
  let (path, version) := copySourcePieces "?versionId=".toList rest
  let (bucket, key) ← Lib.splitOnce '/' path
  return (← decodeText bucket, ← decodeText key, ← version.mapM decodeText)

/-! ## The alphabet of the pieces -/

section Pieces

variable {text : Str} {c : Char}

theorem encode_eq (preserveSlash : Bool) (text : Str) :
    copySourceHeader.encode preserveSlash text =
      awsUriEncode text !preserveSlash := by
  cases preserveSlash <;> rfl

theorem decodeText_awsUriEncode (text : Str) (encodeSlash : Bool) :
    decodeText (awsUriEncode text encodeSlash) = some text := by
  rw [decodeText, awsUriEncode]
  cases encodeSlash with
  | false =>
      rw [if_neg Bool.false_ne_true,
        Lib.percentDecode_encode unreservedOrSlash_safe, Option.bind_some,
        Lib.utf8Decode_utf8]
  | true =>
      rw [if_pos rfl, Lib.percentDecode_encode unreserved_safe,
        Option.bind_some, Lib.utf8Decode_utf8]

/-- An encoded path holds slashes and the characters of an encoded name. -/
theorem mem_awsUriEncode_slash (h : c ∈ awsUriEncode text false) :
    isPathChar c = true := by
  rcases Lib.mem_percentEncode h with ⟨b, hb, rfl⟩ | rfl | hhex
  · have hchar : ∀ b : UInt8, isUnreservedOrSlash b = true →
        isPathChar (Char.ofNat b.toNat) = true :=
      Lib.forall_byte (by decide +kernel)
    exact hchar b hb
  · rfl
  · rw [isPathChar, isEncodedChar_upperHex c hhex, Bool.true_or]

theorem isEncodedChar_path (h : isEncodedChar c = true) :
    isPathChar c = true := by
  rw [isPathChar, h, Bool.true_or]

theorem isPathChar_visible (h : isPathChar c = true) : 33 ≤ c.toNat ∧
    c.toNat ≤ 126 := by
  have hascii : c.toNat ≤ 127 := by
    rw [isPathChar, isEncodedChar, isCharOf, Bool.or_eq_true, Bool.or_eq_true,
      Bool.and_eq_true, decide_eq_true_eq,
      beq_iff_eq, beq_iff_eq] at h
    rcases h with (⟨hle, -⟩ | rfl) | rfl
    · exact hle
    · decide
    · decide
  exact Lib.forall_ascii (P := fun c => isPathChar c = true → 33 ≤ c.toNat ∧
    c.toNat ≤ 126)
    (by decide +kernel) hascii h

end Pieces

/-! ## The header -/

section Header

variable {c : Char} (source : CopySource)

/-- The version behind the path, when there is one. -/
def versionSuffix (separator : Str) : Option Str → Str
  | some versionId => separator ++ awsUriEncode versionId true
  | none => []

theorem copySourceHeader_eq :
    copySourceHeader source =
      '/' :: (awsUriEncode source.bucket true ++
        '/' :: awsUriEncode source.key.text false ++
        versionSuffix "?versionId=".toList source.versionId) := by
  rw [copySourceHeader, encode_eq, encode_eq, List.append_assoc,
    List.cons_append]
  cases source.versionId with
  | none => rfl
  | some versionId => rfl

theorem copySourcePieces_path {path : Str} (rest : Str) (versionId : Option Str)
    (hpath : c ∉ path) :
    copySourcePieces (c :: rest) (path ++ versionSuffix (c :: rest) versionId) =
      (path, versionId.map fun versionId => awsUriEncode versionId true) := by
  cases versionId with
  | none =>
      rw [versionSuffix, List.append_nil, copySourcePieces,
        Lib.splitOnceAt_eq_none hpath]
      rfl
  | some versionId =>
      rw [versionSuffix, copySourcePieces, Lib.splitOnceAt_append _ hpath]
      rfl

theorem versionSuffix_visible {separator : Str}
    (hseparator : ∀ c ∈ separator, 33 ≤ c.toNat ∧ c.toNat ≤ 126)
    (versionId : Option Str) : ∀ c ∈ versionSuffix separator versionId,
      33 ≤ c.toNat ∧ c.toNat ≤ 126 := by
  intro c hc
  cases versionId with
  | none => cases hc
  | some versionId =>
      rw [versionSuffix, List.mem_append] at hc
      rcases hc with hc | hc
      · exact hseparator c hc
      · exact isPathChar_visible (isEncodedChar_path (mem_awsUriEncode hc))

theorem readCopySource_header :
    readCopySource (copySourceHeader source) =
      some (source.bucket, source.key.text, source.versionId) := by
  have hslash : '/' ∉ awsUriEncode source.bucket true :=
    not_mem_awsUriEncode (by decide)
  have hquestion :
      '?' ∉ awsUriEncode source.bucket true ++
          '/' :: awsUriEncode source.key.text false := by
    rw [List.mem_append, List.mem_cons]
    rintro (h | h | h)
    · exact absurd (mem_awsUriEncode h) (by decide)
    · cases h
    · exact absurd (mem_awsUriEncode_slash h) (by decide)
  have hseparator : "?versionId=".toList = '?' :: "versionId=".toList := rfl
  have hleading : (copySourceHeader source).dropPrefix? ['/'] =
      some (awsUriEncode source.bucket true ++
        '/' :: awsUriEncode source.key.text false ++
        versionSuffix "?versionId=".toList source.versionId) := by
    rw [copySourceHeader_eq]
    exact Lib.dropPrefix?_eq_some.mpr rfl
  rw [readCopySource, hleading, Option.bind_eq_bind, Option.bind_some,
    hseparator,
    copySourcePieces_path _ _ hquestion]
  dsimp only
  rw [Lib.splitOnce_append _ hslash, Option.bind_eq_bind, Option.bind_some]
  dsimp only
  rw [decodeText_awsUriEncode, decodeText_awsUriEncode]
  cases source.versionId with
  | none => rfl
  | some versionId =>
      rw [Option.map_some, Option.mapM_some, decodeText_awsUriEncode]
      rfl

theorem copySourceHeader_visible : ∀ c ∈ copySourceHeader source, 33 ≤ c.toNat ∧
    c.toNat ≤ 126 := by
  have hseparator :
    ("?versionId=".toList.all fun c => decide (33 ≤ c.toNat ∧ c.toNat ≤ 126)) =
      true := by decide
  rw [copySourceHeader_eq]
  intro c hc
  rw [List.mem_cons, List.mem_append, List.mem_append, List.mem_cons] at hc
  rcases hc with rfl | ((hbucket | rfl | hkey) | hversion)
  · decide
  · exact isPathChar_visible (isEncodedChar_path (mem_awsUriEncode hbucket))
  · decide
  · exact isPathChar_visible (mem_awsUriEncode_slash hkey)
  · exact versionSuffix_visible
      (List.all_iff_forall_prop.mp hseparator) source.versionId c hversion

/-- The header is visible text that starts with a slash, its pieces are those of
the source, and no two sources share one. -/
theorem copySourceHeader_spec :
    (∀ source, (∀ c ∈ copySourceHeader source, 33 ≤ c.toNat ∧ c.toNat ≤ 126) ∧
      (copySourceHeader source).head? = some '/' ∧
      readCopySource (copySourceHeader source) =
        some (source.bucket, source.key.text, source.versionId)) ∧
    Function.Injective copySourceHeader := by
  refine ⟨?_, ?_⟩
  · intro source
    exact ⟨copySourceHeader_visible source, rfl, readCopySource_header source⟩
  · intro source source' h
    have hread := readCopySource_header source
    rw [h, readCopySource_header] at hread
    obtain ⟨bucket, ⟨key, nonempty, bounded⟩, versionId⟩ := source
    obtain ⟨bucket', ⟨key', nonempty', bounded'⟩, versionId'⟩ := source'
    cases hread
    rfl

end Header

end S3Wire
