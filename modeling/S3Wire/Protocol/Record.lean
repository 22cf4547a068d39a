/-
# `S3Wire.Protocol.Record` — documents that list records, and who can read them

A document of one root element that holds one element per record, and in it one
element per field that is present: the shape of what the client writes for a
service (`serialize_bounded` of `src/protocol/xml.rs`, over the derived
`Serialize` of a struct of named texts).  A `Schema` fixes the names; what it
asks of them, that they are names of XML and that no two fields share one, is
all that a reader needs.

`document_read_iff` is the rule: a reader of XML finds the records that were
written when, and only when, each of their texts is one that XML can carry.
-/
import S3Wire.Protocol.Delete

namespace S3Wire

open Lib.Xml (Node Reads isChar isName tagged)

/-- The shape of a flat document: a root, an element for each entry, and the
elements in it. Names are names of XML, and no two elements of an entry are
alike. -/
structure Schema where
  root : Str
  item : Str
  fields : List Str
  named : isName root = true ∧ isName item = true ∧
    ∀ field ∈ fields, isName field = true
  distinct : fields.Nodup

/-- A text, or none, for each field of the schema. -/
abbrev Record := List (Option Str)

/-! ## Fields under their names -/

section Fields

def writeFields (fields : List (Str × Option Str)) : List Str :=
  fields.flatMap fun field => optionalElement field.1 field.2

def fieldNodes (fields : List (Str × Option Str)) : List Node :=
  fields.flatMap fun field => (field.2.map (textNode field.1)).toList

variable {fields : List (Str × Option Str)}

theorem reads_writeFields (h : ∀ field ∈ fields, isName field.1 = true) :
    Reads (writeFields fields).flatten (fieldNodes fields) := by
  induction fields with
  | nil => exact Reads.nil
  | cons field fields ih =>
      rw [List.forall_mem_cons] at h
      rw [writeFields, fieldNodes, List.flatMap_cons, List.flatMap_cons,
        List.flatten_append]
      exact (reads_optionalElement h.1 _).append (ih h.2)

theorem Passes.all_writeFields {p q : Char → Bool} (hp : Passes p q)
    (h : ∀ field ∈ fields, isName field.1 = true) :
    (writeFields fields).flatten.all p =
      fields.all (fun field => field.2.toList.all (·.all q)) := by
  induction fields with
  | nil => rfl
  | cons field fields ih =>
      rw [List.forall_mem_cons] at h
      rw [writeFields, List.flatMap_cons, List.flatten_append, List.all_append,
        hp.all_optionalElement h.1, List.all_cons]
      exact congrArg _ (ih h.2)

theorem fieldText_of_not_mem {name : Str} (h : name ∉ fields.map Prod.fst) :
    fieldText name (fieldNodes fields) = none := by
  induction fields with
  | nil => rfl
  | cons field fields ih =>
      obtain ⟨n, text⟩ := field
      rw [List.map_cons, List.mem_cons, not_or] at h
      have hrest := ih h.2
      cases text with
      | none => exact hrest
      | some text => exact (fieldText_other (Ne.symm h.1) text _).trans hrest

theorem fieldText_of_mem {name : Str} {text : Option Str}
    (hdistinct : (fields.map Prod.fst).Nodup) (h : (name, text) ∈ fields) :
    fieldText name (fieldNodes fields) = text := by
  induction fields with
  | nil => cases h
  | cons field fields ih =>
      obtain ⟨n, t⟩ := field
      rw [List.map_cons, List.nodup_cons] at hdistinct
      rcases List.mem_cons.mp h with heq | hmem
      · cases heq
        have hlast : fieldText name (fieldNodes fields) = none :=
          fieldText_of_not_mem hdistinct.1
        cases text with
        | none => exact hlast
        | some text => exact fieldText_self name text _
      · have hother : n ≠ name :=
          fun heq => hdistinct.1 (List.mem_map.mpr ⟨_, hmem, heq.symm⟩)
        have hrest := ih hdistinct.2 hmem
        cases t with
        | none => exact hrest
        | some t => exact (fieldText_other hother t _).trans hrest

end Fields

/-! ## The document -/

namespace Schema

variable (schema : Schema)

/-- The element of an entry. -/
def writeRecord (record : Record) : List Str :=
  element schema.item (writeFields (schema.fields.zip record))

def content (records : List Record) : List Str :=
  records.flatMap schema.writeRecord

def document (records : List Record) : List Str :=
  element schema.root (schema.content records)

/-- The records of a document of this schema. -/
def read : Node → Option (List Record)
  | .char _ => none
  | .element name content =>
      if name = schema.root then
        some <| content.filterMap fun
          | .char _ => none
          | .element name content =>
              if name = schema.item then
                some (schema.fields.map fun field => fieldText field content)
                  else none
      else none

def recordNode (record : Record) : Node :=
  .element schema.item (fieldNodes (schema.fields.zip record))

/-- One text, or none, for each field. -/
def Fits (record : Record) : Prop := record.length = schema.fields.length

end Schema

/-- XML can carry every text of the record. -/
def Record.Transmissible (record : Record) : Prop :=
  ∀ text, some text ∈ record → S3Wire.Transmissible text

namespace Schema

variable {schema : Schema} {record : Record} {records : List Record}

theorem named_zip (schema : Schema) (record : Record) :
    ∀ field ∈ schema.fields.zip record, isName field.1 = true :=
  fun field h => schema.named.2.2 field.1 (List.of_mem_zip h).1

theorem reads_writeRecord (schema : Schema) (record : Record) :
    Reads (schema.writeRecord record).flatten [schema.recordNode record] := by
  rw [writeRecord, element_flatten]
  exact Reads.element schema.named.2.1
    (reads_writeFields (schema.named_zip record))

theorem reads_content (schema : Schema) (records : List Record) :
    Reads (schema.content records).flatten (records.map schema.recordNode) := by
  have h := Reads.flatten schema.reads_writeRecord records
  rw [← List.map_eq_flatMap] at h
  rw [content, List.flatMap_def, List.flatten_flatten, List.map_map,
    ← List.flatMap_def]
  exact h

theorem all_content {p q : Char → Bool} (hp : Passes p q) (schema : Schema)
    (records : List Record) :
    (schema.content records).flatten.all p =
      records.all fun record => (schema.fields.zip record).all fun field =>
        field.2.toList.all (·.all q) := by
  rw [content, List.flatMap_def, List.flatten_flatten, List.map_map,
    ← List.flatMap_def, List.all_flatMap]
  refine List.all_congr rfl fun record => ?_
  show (schema.writeRecord record).flatten.all p = _
  rw [writeRecord, hp.all_element schema.named.2.1,
    hp.all_writeFields (schema.named_zip record)]

/-- What every reader makes of the document: nothing, when a text has a
character that XML has not; else the records. -/
theorem readDocument_document (schema : Schema) (records : List Record) :
    readDocument (Lib.utf8 (schema.document records).flatten) =
      if (schema.content records).flatten.all isChar then
        some (.element schema.root (records.map schema.recordNode))
      else none := by
  have hcr : '\r' ∉ (schema.document records).flatten := by
    refine cr_not_mem_of_all ?_
    rw [document, passes_not_cr.all_element schema.named.1,
      all_content passes_not_cr]
    simp only [List.all_eq_true, implies_true]
  rw [readDocument, Lib.utf8Decode_utf8, Option.bind_some,
    ← passes_isChar.all_element schema.named.1]
  rw [document, element_flatten] at hcr ⊢
  exact Lib.Xml.read_tagged schema.named.1 hcr (schema.reads_content _)

theorem map_fieldText (h : schema.Fits record) :
    (schema.fields.map fun field =>
      fieldText field (fieldNodes (schema.fields.zip record))) = record := by
  have hnames : (schema.fields.zip record).map Prod.fst = schema.fields :=
    List.map_fst_zip h.ge
  refine List.ext_getElem (by rw [List.length_map, h]) ?_
  intro i hi hi'
  rw [List.getElem_map]
  refine fieldText_of_mem (hnames.symm ▸ schema.distinct) ?_
  rw [List.length_map] at hi
  have hzip : i < (schema.fields.zip record).length := by
    rw [List.length_zip]
    exact lt_min hi hi'
  have hat : (schema.fields.zip record)[i] = (schema.fields[i], record[i]) :=
    List.getElem_zip
  rw [← hat]
  exact List.getElem_mem hzip

theorem read_recordNodes (h : ∀ record ∈ records, schema.Fits record) :
    schema.read (.element schema.root (records.map schema.recordNode)) =
      some records := by
  rw [read, if_pos rfl, List.filterMap_map]
  congr 1
  have hsame : ∀ record ∈ records, ((fun
      | .char _ => none
      | .element name content =>
          if name = schema.item then
            some (schema.fields.map fun field => fieldText field content)
              else none) ∘
        schema.recordNode) record = some record := by
    intro record hrecord
    rw [Function.comp_apply, recordNode]
    dsimp only
    rw [if_pos rfl, map_fieldText (h record hrecord)]
  rw [List.filterMap_congr hsame, List.filterMap_some]

end Schema

/-! ## What is read -/

theorem Schema.all_isChar_zip {schema : Schema} {record : Record}
    (h : schema.Fits record) :
    ((schema.fields.zip record).all fun field =>
      field.2.toList.all (·.all isChar)) = true ↔
      ∀ text, some text ∈ record → text.all isChar = true := by
  have htexts : (schema.fields.zip record).map Prod.snd = record :=
    List.map_snd_zip h.le
  have hall :
      ((schema.fields.zip record).all fun field =>
        field.2.toList.all (·.all isChar)) =
      ((schema.fields.zip record).map Prod.snd).all fun text =>
          text.toList.all (·.all isChar) := by
    rw [List.all_map]
    rfl
  rw [hall, htexts, List.all_eq_true]
  constructor
  · intro h text htext
    exact List.all_eq_true.mp (h _ htext) text (List.mem_singleton_self text)
  · intro h text htext
    cases text with
    | none => rfl
    | some text =>
        show (text.all isChar && true) = true
        rw [h text htext, Bool.and_true]

/-- The records that are read, when all that was written matches `Char`. -/
theorem Schema.document_read {schema : Schema} {records : List Record}
    (h : ∀ record ∈ records, schema.Fits record) :
    (readDocument (Lib.utf8 (schema.document records).flatten)).bind
      schema.read =
      if (schema.content records).flatten.all isChar then some records
        else none := by
  rw [readDocument_document]
  split
  · exact read_recordNodes h
  · rfl

/-- **Reading the records that were written.** -/
theorem Schema.document_read_iff {schema : Schema} {records : List Record}
    (h : ∀ record ∈ records, schema.Fits record) :
    (readDocument (Lib.utf8 (schema.document records).flatten)).bind
      schema.read = some records ↔
      ∀ record ∈ records, record.Transmissible := by
  have hchars : (schema.content records).flatten.all isChar = true ↔
      ∀ record ∈ records, record.Transmissible := by
    rw [all_content passes_isChar, List.all_eq_true]
    exact forall₂_congr fun record hrecord => all_isChar_zip (h record hrecord)
  rw [document_read h, ← hchars]
  constructor
  · intro hread
    split at hread
    · next hall => exact hall
    · cases hread
  · exact fun hall => if_pos hall

/-! ## Numbers -/

/-- A number, as a service reads it. -/
def readDecimal (text : Str) : Option Nat :=
  if text.isEmpty || !text.all Char.isDigit then none
  else some (Nat.ofDigitChars 10 text 0)

theorem readDecimal_decimal (n : Nat) : readDecimal (decimal n) = some n := by
  have hdigits : (decimal n).all Char.isDigit = true :=
    List.all_eq_true.mpr fun _ =>
    Nat.isDigit_of_mem_toDigits (by decide) (by decide)
  have hsome : (decimal n).isEmpty = false :=
    List.isEmpty_eq_false_iff.mpr Nat.toDigits_ne_nil
  rw [readDecimal, hsome, hdigits]
  exact congrArg some Nat.ofDigitChars_ten_toDigits

end S3Wire
