/-
# `S3Wire.Protocol.Completion` — the document that completes a multipart upload

`serialize_bounded` and `LimitedString` of `src/protocol/xml.rs`, and
`serialize_complete_multipart_upload` of `src/protocol/multipart/completion.rs`.

The XML library hands the document to the writer in fragments.  It writes the
compact form, without whitespace between elements, escapes `&`, `<` and `>` in
text, and writes an element with empty text as `<name/>`.  The writer refuses
the first fragment that would take it over the maximum, so whether a document
fits does not depend on how it is cut (`writeAll_eq`): it fits exactly when its
length does.  The length itself is a sum over the parts
(`len_completeDocument`).
-/
import S3Wire.Client.Headers
import S3Wire.Operation.Multipart

namespace S3Wire

/-! ## Bounded output -/

/-- Why the XML library, or a check in front of it, refused a document. -/
inductive XmlFault where
  /-- A text of the XML library. -/
  | library
  | text (reason : Str)
  deriving DecidableEq

/-- Why a document was not accepted or not written. -/
inductive ProtocolError where
  | oversized (actual maximum : Nat)
  | invalidXml (fault : XmlFault)
  | invalidField (field reason : Str)
  deriving DecidableEq

/-- A buffer that takes no more than a maximum of bytes and remembers that it
was full. -/
structure LimitedString where
  value : Str
  maximum : Nat
  exceeded : Bool

namespace LimitedString

def new (maximum : Nat) : LimitedString := ⟨[], maximum, false⟩

/-- `fmt::Write::write_str`.  The error carries the writer as the failed call
leaves it; an overflow of the length leaves `exceeded` alone. -/
def writeStr (w : LimitedString) (value : Str) :
    Except LimitedString LimitedString :=
  let newLength := Str.len w.value + Str.len value
  if newLength ≥ 2 ^ 64 then .error w
  else if newLength > w.maximum then .error { w with exceeded := true }
  else .ok { w with value := w.value ++ value }

/-- The library stops at the first write that fails. -/
def writeAll (w : LimitedString) : List Str → Except LimitedString LimitedString
  | [] => .ok w
  | fragment :: rest =>
      match w.writeStr fragment with
      | .error w => .error w
      | .ok w => writeAll w rest

end LimitedString

/-- `usize::saturating_add(1)`. -/
def saturatingSucc64 (n : Nat) : Nat := min (n + 1) (2 ^ 64 - 1)

/-- The fragments joined, unless they are more than the maximum. -/
def serializeBounded (fragments : List Str) (maximum : Nat) :
    Except ProtocolError Bytes :=
  match (LimitedString.new maximum).writeAll fragments with
  | .ok output => .ok (Lib.utf8 output.value)
  | .error output =>
      if output.exceeded then
        .error (.oversized (saturatingSucc64 maximum) maximum)
      else .error (.invalidXml .library)

@[simp] theorem Str.len_append (s t : Str) :
    Str.len (s ++ t) = Str.len s + Str.len t := by
  simp [Str.len]

@[simp] theorem Str.len_nil : Str.len [] = 0 := rfl

/-- A bounded writer takes a document whole or not at all, and the fragments do
not matter.  A Rust string has less than 2^63 bytes, so the length cannot
overflow. -/
theorem LimitedString.writeAll_eq :
    ∀ (fragments : List Str) (w : LimitedString),
    Str.len w.value ≤ w.maximum → w.maximum < 2 ^ 63 →
    (∀ f ∈ fragments, Str.len f < 2 ^ 63) →
      (Str.len (w.value ++ fragments.flatten) ≤ w.maximum ∧
        w.writeAll fragments =
          .ok { w with value := w.value ++ fragments.flatten }) ∨
      (w.maximum < Str.len (w.value ++ fragments.flatten) ∧
        ∃ w', w.writeAll fragments = .error w' ∧ w'.exceeded = true)
  | [], w, hw, _, _ => by
      left
      simpa [writeAll] using hw
  | f :: rest, w, hw, hmax, hf => by
      have hlen : Str.len f < 2 ^ 63 := hf f (by simp)
      have hfits : Str.len w.value + Str.len f < 2 ^ 64 := by omega
      rcases Nat.lt_or_ge w.maximum (Str.len w.value + Str.len f) with hgt | hle
      · right
        have hstep : w.writeStr f = .error { w with exceeded := true } := by
          unfold writeStr
          rw [if_neg (Nat.not_le.mpr hfits), if_pos hgt]
        refine ⟨?_, { w with exceeded := true }, ?_, rfl⟩
        · simp only [List.flatten_cons, Str.len_append]
          omega
        · simp only [writeAll, hstep]
      · have hstep : w.writeStr f = .ok { w with value := w.value ++ f } := by
          unfold writeStr
          rw [if_neg (Nat.not_le.mpr hfits), if_neg (Nat.not_lt.mpr hle)]
        have ih :=
          writeAll_eq rest { w with value := w.value ++ f }
            (by simpa using hle) hmax
          fun g hg => hf g (by simp [hg])
        simpa [writeAll, hstep, List.append_assoc] using ih

/-- A document is written when it fits and is `Oversized` when it does not. -/
theorem serializeBounded_eq {fragments : List Str} {maximum : Nat}
    (hmax : maximum < 2 ^ 63) (hf : ∀ f ∈ fragments, Str.len f < 2 ^ 63) :
    serializeBounded fragments maximum =
      if Str.len fragments.flatten ≤ maximum then
        .ok (Lib.utf8 fragments.flatten)
      else .error (.oversized (saturatingSucc64 maximum) maximum) := by
  unfold serializeBounded
  rcases LimitedString.writeAll_eq fragments (LimitedString.new maximum)
      (Nat.zero_le _) hmax hf with
    ⟨hle, heq⟩ | ⟨hgt, w', heq, hex⟩
  · rw [heq]
    simp only [LimitedString.new, List.nil_append] at hle ⊢
    rw [if_pos hle]
  · rw [heq]
    simp only [LimitedString.new, List.nil_append] at hgt
    simp only [hex, if_true]
    rw [if_neg (Nat.not_le.mpr hgt)]

theorem LimitedString.writeAll_ok :
    ∀ {fragments : List Str} {w w' : LimitedString},
    w.writeAll fragments = .ok w' → w'.value = w.value ++ fragments.flatten
  | [], w, w', h => by
      rw [writeAll] at h
      cases h
      rw [List.flatten_nil, List.append_nil]
  | f :: rest, w, w', h => by
      rw [writeAll] at h
      split at h
      · cases h
      · next w₁ hwrite =>
          have hfirst : w₁.value = w.value ++ f := by
            rw [writeStr] at hwrite
            split at hwrite
            · cases hwrite
            split at hwrite
            · cases hwrite
            · cases hwrite
              rfl
          rw [writeAll_ok h, hfirst, List.flatten_cons, List.append_assoc]

/-- Whatever the bound, a document that is written is written whole. -/
theorem serializeBounded_ok {fragments : List Str} {maximum : Nat} {doc : Bytes}
    (h : serializeBounded fragments maximum = .ok doc) :
    doc = Lib.utf8 fragments.flatten := by
  rw [serializeBounded] at h
  split at h
  · next output hwrite =>
      cases h
      rw [LimitedString.writeAll_ok hwrite]
      rfl
  · split at h <;> cases h

/-! ## The document -/

/-- The characters the library escapes in text: those of markup, and the
carriage return, which a reader would take for the end of a line. -/
def xmlEscape (c : Char) : Str :=
  if c = '&' then "&amp;"
  else if c = '<' then "&lt;"
  else if c = '>' then "&gt;"
  else if c = '\r' then "&#13;"
  else [c]

/-- An element: its tags around its content. -/
def element (name : Str) (content : List Str) : List Str :=
  ["<".toList, name, ">".toList] ++ content ++ ["</".toList, name, ">".toList]

/-- An element that holds a text. -/
def textElement (name text : Str) : List Str :=
  if text.isEmpty then ["<".toList, name, "/>".toList]
  else element name [text.flatMap xmlEscape]

/-- A field that `skip_serializing_if` leaves out when it is `None`. -/
def optionalElement (name : Str) : Option Str → List Str
  | none => []
  | some text => textElement name text

/-- `CompletedPartDocument`. -/
def completedPartDocument (part : CompletedPart) : List Str :=
  element "Part"
    (textElement "PartNumber" (decimal part.number) ++
      textElement "ETag" part.eTag ++
      optionalElement "ChecksumCRC32" part.checksum.crc32 ++
      optionalElement "ChecksumCRC32C" part.checksum.crc32c ++
      optionalElement "ChecksumCRC64NVME" part.checksum.crc64Nvme ++
      optionalElement "ChecksumSHA1" part.checksum.sha1 ++
      optionalElement "ChecksumSHA256" part.checksum.sha256)

/-- `CompleteDocument`. -/
def completeDocument (parts : List CompletedPart) : List Str :=
  element "CompleteMultipartUpload" (parts.flatMap completedPartDocument)

/-- `serialize_complete_multipart_upload`. -/
def serializeCompleteMultipartUpload (request : CompleteMultipartUploadRequest)
    (maximum : Nat) :
    Except ProtocolError Bytes :=
  serializeBounded (completeDocument request.completedParts) maximum

/-! ## Its length -/

/-- The length of a sequence of fragments. -/
def fragmentsLen (fragments : List Str) : Nat := Str.len fragments.flatten

@[simp] theorem fragmentsLen_append (a b : List Str) :
    fragmentsLen (a ++ b) = fragmentsLen a + fragmentsLen b := by
  simp [fragmentsLen]

theorem fragmentsLen_element (name : Str) (content : List Str) :
    fragmentsLen (element name content) =
      5 + 2 * Str.len name + fragmentsLen content := by
  have hopen : Str.len "<".toList = 1 := by decide
  have hclose : Str.len ">".toList = 1 := by decide
  have hend : Str.len "</".toList = 2 := by decide
  simp only [element, fragmentsLen, List.flatten_append, List.flatten_cons,
    List.flatten_nil,
    Str.len_append, hopen, hclose, hend, Str.len_nil]
  omega

/-- Text in which nothing is escaped. -/
def Unescaped (text : Str) : Prop := text ≠ [] ∧ ∀ c ∈ text, xmlEscape c = [c]

theorem fragmentsLen_textElement (name : Str) {text : Str}
    (h : Unescaped text) :
    fragmentsLen (textElement name text) =
      5 + 2 * Str.len name + Str.len text := by
  have hempty : text.isEmpty = false := by simpa using h.1
  have hsame : text.flatMap xmlEscape = text := by
    calc text.flatMap xmlEscape = text.flatMap fun c => [c] := by
          simp only [List.flatMap_def]
          rw [List.map_congr_left h.2]
      _ = text := by simp
  rw [textElement, hempty, hsame, if_neg Bool.false_ne_true,
    fragmentsLen_element]
  simp [fragmentsLen]

theorem fragmentsLen_flatMap {α : Type} (f : α → List Str) : ∀ xs : List α,
    fragmentsLen (xs.flatMap f) = (xs.map fun x => fragmentsLen (f x)).sum
  | [] => rfl
  | x :: xs => by simp [fragmentsLen_flatMap f xs]

theorem len_completeDocument (parts : List CompletedPart) :
    fragmentsLen (completeDocument parts) =
      51 + (parts.map fun p => fragmentsLen (completedPartDocument p)).sum := by
  have hroot : Str.len "CompleteMultipartUpload".toList = 23 := by decide
  rw [completeDocument, fragmentsLen_element, hroot, fragmentsLen_flatMap]

end S3Wire
