/-
# `S3Wire.Protocol.Delete` — the document of a multi-object delete, and who can read it

`src/protocol/delete.rs`.  Each entry of the request is written as an `Object`
with its key, its version and its ETag.  A key is any text of at most 1,024
bytes.  The library escapes `&`, `<` and `>`, and the carriage return that a
reader would take for the end of a line; every other character it writes as it
is.  So the document says what the request says to a reader of XML exactly when
no text holds a character that XML does not have
(`serializeDeleteObjects_read_iff`).

What the document says is read off its tree (`readEntries`);
`readDocument_delete` is the tree for every request.  `Passes` carries a test of
characters from the texts of a request to the document: that they are characters
of XML, and that none of those written is a carriage return.
-/
import S3Wire.Lib.Fallible
import S3Wire.Lib.Xml
import S3Wire.Protocol.Completion
import S3Wire.Operation.Object

namespace S3Wire

open Lib.Xml (Node Reads isChar isName isNameChar tagged textOf)

/-! ## The document -/

/-- An object of a batch, by its elements. -/
structure DeleteEntry where
  key : Str
  versionId : Option Str
  eTag : Option Str
  deriving DecidableEq

/-- The `Delete` document. -/
structure DeleteDocument where
  objects : List DeleteEntry
  quiet : Bool

def deleteEntry (entry : DeleteEntry) : List Str :=
  element "Object"
    (textElement "Key" entry.key ++
      optionalElement "VersionId" entry.versionId ++
      optionalElement "ETag" entry.eTag)

def deleteDocument (document : DeleteDocument) : List Str :=
  element "Delete"
    (document.objects.flatMap deleteEntry ++
      textElement "Quiet" (if document.quiet then "true" else "false"))

/-- The entries of a request, as they are to be sent. -/
def DeleteObjectsRequest.document (request : DeleteObjectsRequest) :
    DeleteDocument where
  objects := request.objects.map fun object =>
    { key := object.key.text, versionId := object.versionId,
      eTag := object.ifMatch }
  quiet := request.quiet

/-- `serialize_delete_objects`. -/
def serializeDeleteObjects (request : DeleteObjectsRequest) (maximum : Nat) :
    Except ProtocolError Bytes :=
  serializeBounded (deleteDocument request.document) maximum

/-! ## Reading it -/

/-- The text of the first element of this name. -/
def fieldText (name : Str) (content : List Node) : Option Str :=
  content.findSome? fun
    | .char _ => none
    | .element n inner => if n = name then some (textOf inner) else none

/-- The entry in the content of an `Object` element. -/
def readEntry (content : List Node) : Option DeleteEntry :=
  (fieldText "Key" content).map fun key =>
    { key := key, versionId := fieldText "VersionId" content,
      eTag := fieldText "ETag" content }

/-- The content of an `Object` element. -/
def objectContent : Node → Option (List Node)
  | .char _ => none
  | .element name content =>
      if name = "Object".toList then some content else none

/-- What a service is asked to delete: the `Object` elements of a `Delete`
element. -/
def readEntries : Node → Option (List DeleteEntry)
  | .char _ => none
  | .element name content =>
      if name = "Delete".toList then
        (content.filterMap objectContent).mapM readEntry else none

/-- The root element of a document, when it is well formed. -/
def readDocument (doc : Bytes) : Option Node :=
  (Lib.utf8Decode doc).bind Lib.Xml.read

/-! ## What was written -/

section Written

theorem element_flatten (name : Str) (content : List Str) :
    (element name content).flatten = tagged name content.flatten := by
  simp [element, tagged]

theorem reads_xmlEscape (c : Char) : Reads (xmlEscape c) [.char c] := by
  rw [xmlEscape]
  split
  · next h =>
      rw [h]
      exact @Reads.reference "amp".toList _ (by decide) rfl
  · next hamp =>
      split
      · next h =>
          rw [h]
          exact @Reads.reference "lt".toList _ (by decide) rfl
      · next hlt =>
          split
          · next h =>
              rw [h]
              exact @Reads.reference "gt".toList _ (by decide) rfl
          · next hgt =>
              split
              · next h =>
                  rw [h]
                  exact @Reads.reference "#13".toList _ (by decide) (by decide)
              · exact Reads.verbatim hlt hamp hgt

def textNode (name text : Str) : Node := .element name (text.map .char)

theorem reads_textElement {name : Str} (h : isName name = true) (text : Str) :
    Reads (textElement name text).flatten [textNode name text] := by
  rw [textElement]
  split
  · next hempty =>
      rw [List.isEmpty_iff.mp hempty]
      have := Reads.empty h
      simpa [textNode] using this
  · rw [element_flatten]
    refine Reads.element h ?_
    rw [List.flatten_singleton]
    exact Reads.flatMap reads_xmlEscape text

theorem reads_optionalElement {name : Str} (h : isName name = true)
    (text : Option Str) :
    Reads (optionalElement name text).flatten
      (text.map (textNode name)).toList := by
  cases text with
  | none => exact Reads.nil
  | some text => exact reads_textElement h text

def entryContent (entry : DeleteEntry) : List Node :=
  [textNode "Key" entry.key] ++
    (entry.versionId.map (textNode "VersionId")).toList ++
    (entry.eTag.map (textNode "ETag")).toList

def entryNode (entry : DeleteEntry) : Node :=
  .element "Object".toList (entryContent entry)

theorem reads_deleteEntry (entry : DeleteEntry) :
    Reads (deleteEntry entry).flatten [entryNode entry] := by
  rw [deleteEntry, element_flatten, List.flatten_append, List.flatten_append]
  refine Reads.element (by decide) ?_
  exact ((reads_textElement (by decide) _).append
    (reads_optionalElement (by decide) _)).append
    (reads_optionalElement (by decide) _)

/-- The content of the root element. -/
def documentNodes (document : DeleteDocument) : List Node :=
  document.objects.map entryNode ++
    [textNode "Quiet" (if document.quiet then "true" else "false")]

def documentContent (document : DeleteDocument) : Str :=
  (document.objects.flatMap deleteEntry ++
    textElement "Quiet" (if document.quiet then "true" else "false")).flatten

theorem reads_documentContent (document : DeleteDocument) :
    Reads (documentContent document) (documentNodes document) := by
  rw [documentContent, List.flatten_append]
  refine Reads.append ?_ (reads_textElement (by decide) _)
  have hentries := Reads.flatten reads_deleteEntry document.objects
  rw [← List.map_eq_flatMap] at hentries
  rw [List.flatMap_def, List.flatten_flatten, List.map_map, ← List.flatMap_def]
  exact hentries

theorem fieldText_self (name text : Str) (rest : List Node) :
    fieldText name (textNode name text :: rest) = some text := by
  rw [fieldText, textNode, List.findSome?_cons]
  simp only [if_true, Lib.Xml.textOf_chars]

theorem fieldText_other {name n : Str} (h : n ≠ name) (text : Str)
    (rest : List Node) :
    fieldText name (textNode n text :: rest) = fieldText name rest := by
  rw [fieldText, textNode, List.findSome?_cons]
  simp only [if_neg h]
  rfl

theorem readEntry_entryContent (entry : DeleteEntry) :
    readEntry (entryContent entry) = some entry := by
  have hversion : ("Key" : Str) ≠ "VersionId" := by decide
  have htag : ("Key" : Str) ≠ "ETag" := by decide
  have hswap : ("VersionId" : Str) ≠ "ETag" := by decide
  have hswap' : ("ETag" : Str) ≠ "VersionId" := by decide
  obtain ⟨key, versionId, eTag⟩ := entry
  rw [readEntry, entryContent, List.append_assoc, List.singleton_append,
    fieldText_self, fieldText_other hversion,
    fieldText_other htag]
  cases versionId with
  | none =>
      cases eTag with
      | none => rfl
      | some tag =>
          show some
            (DeleteEntry.mk key (fieldText _ [textNode _ tag])
              (fieldText _ [textNode _ tag])) = _
          rw [fieldText_other hswap', fieldText_self]
          rfl
  | some version =>
      cases eTag with
      | none =>
          show some (DeleteEntry.mk key (fieldText _ [textNode _ version])
            (fieldText _ [textNode _ version])) = _
          rw [fieldText_other hswap, fieldText_self]
          rfl
      | some tag =>
          show some
            (DeleteEntry.mk key
              (fieldText _ [textNode _ version, textNode _ tag])
            (fieldText _ [textNode _ version, textNode _ tag])) = _
          rw [fieldText_other hswap, fieldText_self, fieldText_self]

theorem readEntries_document (document : DeleteDocument) :
    readEntries (.element "Delete".toList (documentNodes document)) =
      some document.objects := by
  have hquiet : ("Quiet" : Str) ≠ "Object".toList := by decide
  have hentries : (document.objects.map entryNode).filterMap objectContent =
      document.objects.map entryContent := by
    rw [List.filterMap_map, ← List.filterMap_eq_map]
    refine List.filterMap_congr fun entry _ => ?_
    show objectContent (entryNode entry) = some (entryContent entry)
    rw [entryNode, objectContent, if_pos rfl]
  have hnone :
      [textNode "Quiet" (if document.quiet then "true" else "false")].filterMap
        objectContent =
      [] := by
    refine List.filterMap_cons_none ?_
    rw [textNode, objectContent, if_neg hquiet]
  rw [readEntries, if_pos rfl, documentNodes, List.filterMap_append, hentries,
    hnone, List.append_nil]
  refine Lib.mapM_some ?_
  rw [List.forall₂_map_left_iff, List.forall₂_same]
  exact fun entry _ => readEntry_entryContent entry

end Written

/-! ## The characters of a document -/

/-- What passes `q` is written as text that passes `p`, and so is all the
markup. -/
structure Passes (p q : Char → Bool) : Prop where
  left : p '<' = true
  right : p '>' = true
  slash : p '/' = true
  name : ∀ c, isNameChar c = true → p c = true
  escape : ∀ c, (xmlEscape c).all p = q c

theorem xmlEscape_of_isNameChar {c : Char} (h : isNameChar c = true) :
    xmlEscape c = [c] := by
  have hne : ∀ d, isNameChar d = false → c ≠ d := by
    rintro d hd rfl
    rw [h] at hd
    cases hd
  rw [xmlEscape, if_neg (hne _ (by decide)), if_neg (hne _ (by decide)),
    if_neg (hne _ (by decide)),
    if_neg (hne _ (by decide))]

section Characters

variable {p q : Char → Bool} {name : Str}

theorem Passes.all_name (hp : Passes p q) (h : isName name = true) :
    name.all p = true :=
  List.all_eq_true.mpr fun c hc => hp.name c (Lib.Xml.isNameChar_of_mem h hc)

theorem Passes.all_escape (hp : Passes p q) (text : Str) :
    (text.flatMap xmlEscape).all p = text.all q := by
  rw [List.all_flatMap]
  exact List.all_congr rfl hp.escape

theorem Passes.all_element (hp : Passes p q) (h : isName name = true)
    (content : List Str) :
    (element name content).flatten.all p = content.flatten.all p := by
  rw [element_flatten, tagged]
  simp only [List.all_cons, List.all_append, List.all_nil, hp.all_name h,
    hp.left, hp.right, hp.slash,
    Bool.true_and, Bool.and_true]

theorem Passes.all_textElement (hp : Passes p q) (h : isName name = true)
    (text : Str) :
    (textElement name text).flatten.all p = text.all q := by
  rw [textElement]
  split
  · next hempty =>
      rw [List.isEmpty_iff.mp hempty]
      show ('<' :: (name ++ ['/', '>'])).all p = true
      rw [List.all_cons, List.all_append, hp.all_name h, hp.left]
      simp only [List.all_cons, List.all_nil, hp.slash, hp.right, Bool.and_true]
  · rw [hp.all_element h, List.flatten_singleton, hp.all_escape]

theorem Passes.all_optionalElement (hp : Passes p q) (h : isName name = true)
    (text : Option Str) :
    (optionalElement name text).flatten.all p = text.toList.all (·.all q) := by
  cases text with
  | none => rfl
  | some text =>
      show (textElement name text).flatten.all p = (text.all q && true)
      rw [hp.all_textElement h, Bool.and_true]

def DeleteEntry.texts (entry : DeleteEntry) : List Str :=
  [entry.key] ++ entry.versionId.toList ++ entry.eTag.toList

theorem Passes.all_deleteEntry (hp : Passes p q) (entry : DeleteEntry) :
    (deleteEntry entry).flatten.all p = entry.texts.all (·.all q) := by
  rw [deleteEntry, hp.all_element (by decide), List.flatten_append,
    List.flatten_append,
    List.all_append, List.all_append, hp.all_textElement (by decide),
    hp.all_optionalElement (by decide), hp.all_optionalElement (by decide),
      DeleteEntry.texts,
    List.all_append, List.all_append]
  simp only [List.all_cons, List.all_nil, Bool.and_true]

theorem Passes.all_deleteDocument (hp : Passes p q)
    (document : DeleteDocument) :
    (deleteDocument document).flatten.all p =
      document.objects.all (·.texts.all (·.all q)) := by
  have hletters : ∀ text : Str, isName text = true → text.all q = true := by
    intro text h
    refine List.all_eq_true.mpr fun c hc => ?_
    have hname := Lib.Xml.isNameChar_of_mem h hc
    rw [← hp.escape c, xmlEscape_of_isNameChar hname]
    exact List.all_eq_true.mpr fun d hd => by
      rw [List.mem_singleton.mp hd, hp.name c hname]
  have hquiet :
      (textElement "Quiet"
        (if document.quiet then "true" else "false")).flatten.all p =
      true := by
    rw [hp.all_textElement (by decide)]
    exact hletters _ (by cases document.quiet <;> decide)
  rw [deleteDocument, hp.all_element (by decide), List.flatten_append,
    List.all_append, hquiet,
    Bool.and_true, List.flatMap_def, List.flatten_flatten, List.map_map,
      ← List.flatMap_def,
    List.all_flatMap]
  exact List.all_congr rfl fun entry => hp.all_deleteEntry entry

end Characters

theorem passes_isChar : Passes isChar isChar where
  left := by decide
  right := by decide
  slash := by decide
  name := fun _ => Lib.Xml.isChar_of_isNameChar
  escape := by
    intro c
    rw [xmlEscape]
    split
    · next h =>
        rw [h]
        decide
    split
    · next h =>
        rw [h]
        decide
    split
    · next h =>
        rw [h]
        decide
    split
    · next h =>
        rw [h]
        decide
    · exact Bool.and_true _

theorem passes_not_cr : Passes (fun c => c != '\r') (fun _ => true) where
  left := by decide
  right := by decide
  slash := by decide
  name := by
    intro c h
    refine bne_iff_ne.mpr ?_
    rintro rfl
    exact absurd h (by decide)
  escape := by
    intro c
    rw [xmlEscape]
    split
    · decide
    split
    · decide
    split
    · decide
    split
    · decide
    · next hcr => exact (Bool.and_true _).trans (bne_iff_ne.mpr hcr)

theorem cr_not_mem_of_all {s : Str} (h : s.all (fun c => c != '\r') = true) :
    '\r' ∉ s :=
  fun hmem => absurd (List.all_eq_true.mp h _ hmem) (by decide)

/-! ## What a service reads -/

/-- Text that XML can carry: its characters exist there. -/
def Transmissible (text : Str) : Prop := text.all isChar = true

instance (text : Str) : Decidable (Transmissible text) :=
  inferInstanceAs (Decidable (text.all isChar = true))

/-- Every key, version and ETag can be carried. -/
def DeleteDocument.Transmissible (document : DeleteDocument) : Prop :=
  ∀ entry ∈ document.objects, ∀ text ∈ entry.texts, S3Wire.Transmissible text

theorem DeleteDocument.transmissible_iff {document : DeleteDocument} :
    document.Transmissible ↔ document.objects.all (·.texts.all (·.all isChar)) =
      true := by
  rw [Transmissible]
  simp only [List.all_eq_true, S3Wire.Transmissible]

/-- **What every reader makes of the document**: nothing, when a text has a
character that XML has not; else the entries. -/
theorem readDocument_delete {request : DeleteObjectsRequest} {maximum : Nat}
    {doc : Bytes} (h : serializeDeleteObjects request maximum = .ok doc) :
    readDocument doc =
      if request.document.objects.all (·.texts.all (·.all isChar)) then
        some (.element "Delete".toList (documentNodes request.document))
      else none := by
  have hcr : '\r' ∉ (deleteDocument request.document).flatten := by
    refine cr_not_mem_of_all ?_
    rw [passes_not_cr.all_deleteDocument]
    simp only [List.all_eq_true, implies_true]
  rw [serializeBounded_ok h, readDocument, Lib.utf8Decode_utf8,
    Option.bind_some,
    ← passes_isChar.all_deleteDocument]
  rw [deleteDocument, element_flatten] at hcr ⊢
  exact Lib.Xml.read_tagged (by decide) hcr (reads_documentContent _)

/-- **Deleting what was asked for.**  The document is well formed and lists
exactly the entries of the request when, and only when, all their texts can be
carried by XML. -/
theorem serializeDeleteObjects_read_iff {request : DeleteObjectsRequest}
    {maximum : Nat} {doc : Bytes}
    (h : serializeDeleteObjects request maximum = .ok doc) :
    (∃ root, readDocument doc = some root ∧
      readEntries root = some request.document.objects) ↔
      request.document.Transmissible := by
  rw [DeleteDocument.transmissible_iff, readDocument_delete h]
  constructor
  · rintro ⟨root, hread, -⟩
    split at hread
    · next hchar => exact hchar
    · cases hread
  · intro hchar
    rw [if_pos hchar]
    exact ⟨_, rfl, readEntries_document request.document⟩

/-- A request for one object. -/
def deleteOne (key : ObjectKey) : DeleteObjectsRequest where
  objects := [DeleteObjectIdentifier.new key]
  quiet := false
  headers := HeaderMap.new
  nonempty := List.cons_ne_nil _ _
  bounded := Nat.one_le_iff_ne_zero.mpr (by decide)

theorem deleteOne_writes {key : ObjectKey}
    (h : (serializeDeleteObjects (deleteOne key) 1024).isOk = true) :
    ∃ doc, serializeDeleteObjects (deleteOne key) 1024 = .ok doc := by
  cases hdoc : serializeDeleteObjects (deleteOne key) 1024 with
  | error e =>
      rw [hdoc] at h
      cases h
  | ok doc => exact ⟨doc, rfl⟩

theorem serializeDeleteObjects_read_escaped :
    ∃ doc, serializeDeleteObjects
      (deleteOne ⟨"a<&\r\nb".toList, by decide, by decide⟩) 1024 = .ok doc ∧
      ∃ root, readDocument doc = some root ∧
        readEntries root = some [⟨"a<&\r\nb".toList, none, none⟩] := by
  obtain ⟨doc, h⟩ :=
    @deleteOne_writes ⟨"a<&\r\nb".toList, by decide, by decide⟩
      (by decide +kernel)
  refine ⟨doc, h, (serializeDeleteObjects_read_iff h).mpr ?_⟩
  intro entry he text ht
  rw [List.mem_singleton.mp he] at ht
  rw [List.mem_singleton.mp ht]
  decide

/-- A key with a control character: the document is not well formed. -/
theorem serializeDeleteObjects_misread :
    ∃ doc,
      serializeDeleteObjects
        (deleteOne ⟨"control-\x01".toList, by decide, by decide⟩) 1024 =
        .ok doc ∧
      readDocument doc = none := by
  obtain ⟨doc, h⟩ :=
    @deleteOne_writes ⟨"control-\x01".toList, by decide, by decide⟩
      (by decide +kernel)
  refine ⟨doc, h, ?_⟩
  rw [readDocument_delete h, if_neg (by decide)]

end S3Wire
