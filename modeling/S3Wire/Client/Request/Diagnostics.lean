/-
# `S3Wire.Client.Request.Diagnostics` — what an error of the service lets through

The texts of an error of the service come from three places: the response
headers, which `header_text` filters, the message of the error document, which
`sanitize_service_message` filters, and the other fields of that document, which
nothing filters.  A message is plain unless it names a signing header in other
letter cases than `X-Amz-`, or is blank (`serviceError_message_iff`); the code
and the identifiers are what the document says (`serviceError_fields_iff`).
-/
import S3Wire.Lib.Words
import S3Wire.Client.Request.Response
import S3Wire.Protocol.Delete
import S3Wire.Protocol.Listing

namespace S3Wire

/-! ## Parts of a message -/

theorem Str.containsText_iff {s part : Str} : s.containsText part = true ↔
    part <:+: s := by
  rw [Str.containsText, List.any_eq_true, List.infix_iff_prefix_suffix]
  constructor
  · rintro ⟨t, ht, hleading⟩
    exact ⟨t, List.isPrefixOf_iff_prefix.mp hleading,
      (List.mem_tails t s).mp ht⟩
  · rintro ⟨t, hleading, hsuffix⟩
    exact ⟨t, (List.mem_tails t s).mpr hsuffix,
      List.isPrefixOf_iff_prefix.mpr hleading⟩

/-- The marker stands in the message, in some mixture of letter cases. -/
def Mentions (message marker : Str) : Prop :=
  ∃ part, part <:+: message ∧ toAsciiLowercase part = marker

theorem mentions_iff {message marker : Str} :
    Mentions message marker ↔
    Str.containsText (toAsciiLowercase message) marker = true := by
  rw [Str.containsText_iff, toAsciiLowercase, List.infix_map_iff]
  exact exists_congr fun part => and_congr_right fun _ => eq_comm

instance (message marker : Str) : Decidable (Mentions message marker) :=
  decidable_of_iff' _ mentions_iff

/-- What names signing material. -/
def signingMarkers : List Str :=
  ["x-amz-".toList, "authorization".toList, "token".toList]

/-- A marker has letters in it, and no whitespace. -/
def IsMarker (marker : Str) : Prop :=
  marker ≠ [] ∧ ∀ c ∈ marker, isAsciiWhitespace c = false ∧ c.isDigit = false

theorem isMarker_of_mem {marker : Str} (h : marker ∈ signingMarkers) :
    IsMarker marker := by
  have hall : (signingMarkers.all fun marker =>
      !marker.isEmpty && marker.all fun c =>
        !isAsciiWhitespace c && !c.isDigit) = true := by decide
  have hmarker := List.all_eq_true.mp hall marker h
  rw [Bool.and_eq_true] at hmarker
  refine ⟨by simpa using hmarker.1, fun c hc => ?_⟩
  simpa using List.all_eq_true.mp hmarker.2 c hc

theorem toLower_of_isAsciiWhitespace {c : Char}
    (h : isAsciiWhitespace c = true) : c.toLower = c := by
  simp only [isAsciiWhitespace, Bool.or_eq_true, beq_iff_eq] at h
  rcases h with (((rfl | rfl) | rfl) | rfl) | rfl <;> decide

theorem part_of_marker {part marker : Str} (hmarker : IsMarker marker)
    (h : toAsciiLowercase part = marker) :
    part ≠ [] ∧ ∀ c ∈ part, isAsciiWhitespace c = false := by
  subst h
  refine ⟨fun hnil => hmarker.1 (by rw [hnil]; rfl), fun c hc => ?_⟩
  by_contra hspace
  rw [Bool.not_eq_false] at hspace
  have hmem : c.toLower ∈ toAsciiLowercase part := List.mem_map_of_mem hc
  rw [toLower_of_isAsciiWhitespace hspace] at hmem
  rw [(hmarker.2 c hmem).1] at hspace
  cases hspace

theorem mentions_of_words_eq {m m' marker : Str} (hmarker : IsMarker marker)
    (h : splitAsciiWhitespace m = splitAsciiWhitespace m') : Mentions m marker ↔
    Mentions m' marker := by
  refine exists_congr fun part => and_congr_left fun hpart => ?_
  obtain ⟨hne, hspace⟩ := part_of_marker hmarker hpart
  exact Lib.infix_iff_of_words_eq h hne hspace

theorem mentions_append_space {a b marker : Str} (hmarker : IsMarker marker) :
    Mentions (a ++ ' ' :: b) marker ↔ Mentions a marker ∨
    Mentions b marker := by
  constructor
  · rintro ⟨part, hinfix, hpart⟩
    obtain ⟨hne, hspace⟩ := part_of_marker hmarker hpart
    rw [Lib.infix_iff_words hne hspace,
      Lib.words_append_cons (c := ' ') (by decide)] at hinfix
    obtain ⟨w, hw, hinfix⟩ := hinfix
    rcases List.mem_append.mp hw with hw | hw
    · exact .inl ⟨part, (Lib.infix_iff_words hne hspace).mpr ⟨w, hw, hinfix⟩,
        hpart⟩
    · exact .inr ⟨part, (Lib.infix_iff_words hne hspace).mpr ⟨w, hw, hinfix⟩,
        hpart⟩
  · rintro (⟨part, hinfix, hpart⟩ | ⟨part, hinfix, hpart⟩)
    · exact ⟨part, List.infix_append_of_infix_left hinfix, hpart⟩
    · exact ⟨part, List.infix_append_of_infix_right (List.infix_cons hinfix),
        hpart⟩

/-! ## The filter -/

/-- A message that may be shown. -/
structure PlainMessage (message : Str) : Prop where
  nonempty : message ≠ []
  short : message.len ≤ 512
  noControl : ∀ c ∈ message, isAsciiControl c = false
  noMarkers : ∀ marker ∈ signingMarkers, ¬Mentions message marker

/-- What `sanitize_service_message` lets through, before it joins the words
again. -/
structure Accepted (message : Str) : Prop where
  nonempty : message ≠ []
  short : message.len ≤ 512
  noHeader : ¬"X-Amz-".toList <:+: message
  noAuthorization : ¬Mentions message "authorization".toList
  noToken : ¬Mentions message "token".toList
  chars : ∀ c ∈ message, isMessageChar c = true

theorem accepted_iff {message : Str} : Accepted message ↔
    (message.isEmpty || message.len > 512 || message.containsText "X-Amz-" ||
      Str.containsText (toAsciiLowercase message) "authorization" ||
      Str.containsText (toAsciiLowercase message) "token" ||
        !message.all isMessageChar) = false := by
  have hheader : message.containsText "X-Amz-" = false ↔
      ¬"X-Amz-".toList <:+: message := by
    rw [← Str.containsText_iff, Bool.not_eq_true]
  have hmarker : ∀ marker : Str,
      Str.containsText (toAsciiLowercase message) marker = false ↔
          ¬Mentions message marker := by
    intro marker
    rw [mentions_iff, Bool.not_eq_true]
  rw [Bool.or_eq_false_iff, Bool.or_eq_false_iff, Bool.or_eq_false_iff,
    Bool.or_eq_false_iff, Bool.or_eq_false_iff,
    hheader, hmarker, hmarker, List.isEmpty_eq_false_iff,
      decide_eq_false_iff_not, gt_iff_lt, not_lt,
    Bool.not_eq_false', List.all_eq_true]
  constructor
  · rintro ⟨hnonempty, hshort, hheader, hauthorization, htoken, hchars⟩
    exact ⟨⟨⟨⟨⟨hnonempty, hshort⟩, hheader⟩, hauthorization⟩, htoken⟩, hchars⟩
  · rintro ⟨⟨⟨⟨⟨hnonempty, hshort⟩, hheader⟩, hauthorization⟩, htoken⟩, hchars⟩
    exact ⟨hnonempty, hshort, hheader, hauthorization, htoken, hchars⟩

instance (message : Str) : Decidable (Accepted message) :=
  decidable_of_iff' _ accepted_iff

/-- The words of a message, one space between them. -/
def joinedWords (message : Str) : Str :=
  [' '].intercalate (splitAsciiWhitespace message)

theorem sanitizeServiceMessage_eq (message : Str) :
    sanitizeServiceMessage message = if Accepted message then
      some (joinedWords message) else none := by
  rw [sanitizeServiceMessage]
  by_cases h : Accepted message
  · rw [if_pos h, accepted_iff.mp h]
    rfl
  · rw [if_neg h]
    rw [accepted_iff, Bool.not_eq_false] at h
    rw [if_pos h]

theorem isMessageChar_facts {c : Char} (h : isMessageChar c = true) :
    c.toNat ≤ 127 ∧
    (isAsciiWhitespace c = false → isAsciiControl c = false) := by
  have hascii : c.toNat ≤ 127 := by
    rw [isMessageChar, Bool.or_eq_true, Bool.or_eq_true, decide_eq_true_eq] at h
    rcases h with (h | h) | h
    · exact ascii_of_isAlphanum h
    · simp only [isAsciiWhitespace, Bool.or_eq_true, beq_iff_eq] at h
      rcases h with (((rfl | rfl) | rfl) | rfl) | rfl <;> decide
    · have hall : (".,:;_-'()".toList.all fun c => c.toNat ≤ 127) = true := by
        decide
      simpa using List.all_eq_true.mp hall c h
  refine ⟨hascii, ?_⟩
  exact Lib.forall_ascii
    (P := fun c => isMessageChar c = true → isAsciiWhitespace c = false →
      isAsciiControl c = false)
    (by decide +kernel) hascii h

theorem mem_joinedWords {message : Str} {c : Char}
    (hc : c ∈ joinedWords message) :
    c = ' ' ∨ c ∈ message ∧ isAsciiWhitespace c = false := by
  rcases Lib.mem_intercalate hc with hc | ⟨w, hw, hc⟩
  · exact .inl hc
  · exact .inr ⟨Lib.mem_of_mem_words hw hc, (Lib.isWord_of_mem hw).2 c hc⟩

theorem splitAsciiWhitespace_joinedWords (message : Str) :
    splitAsciiWhitespace (joinedWords message) = splitAsciiWhitespace message :=
  @Lib.words_join _ isAsciiWhitespace ' ' (by decide) _ fun _ hw =>
    Lib.isWord_of_mem hw

theorem joinedWords_ne_nil {message : Str} :
    joinedWords message ≠ [] ↔ ∃ c ∈ message, isAsciiWhitespace c = false := by
  have hwords : joinedWords message = [] ↔
      splitAsciiWhitespace message = [] := by
    constructor
    · intro h
      rw [← splitAsciiWhitespace_joinedWords, h]
      exact Lib.words_nil
    · intro h
      rw [joinedWords, h, List.intercalate_nil]
  have hgap : splitAsciiWhitespace message = [] ↔
    Lib.IsGap isAsciiWhitespace message := Lib.words_eq_nil_iff
  rw [ne_eq, hwords, hgap, Lib.IsGap]
  push Not
  exact exists_congr fun c => and_congr_right fun _ => by
    rw [ne_eq, Bool.not_eq_true]

theorem len_ascii {s : Str} (h : ∀ c ∈ s, c.toNat ≤ 127) :
    s.len = s.length := by
  rw [Str.len, utf8_ascii h, List.length_map]

/-- What is joined of an accepted message is plain, unless there is nothing to
join or it names a signing header in other letter cases than the filter looks
for. -/
theorem plain_joinedWords_iff {message : Str} (h : Accepted message) :
    PlainMessage (joinedWords message) ↔
      (∃ c ∈ message, isAsciiWhitespace c = false) ∧
      ¬Mentions message "x-amz-".toList := by
  have hsame :
      ∀ marker ∈ signingMarkers, Mentions (joinedWords message) marker ↔
          Mentions message marker := by
    intro marker hmarker
    exact mentions_of_words_eq (isMarker_of_mem hmarker)
      (splitAsciiWhitespace_joinedWords message)
  have hchars : ∀ c ∈ joinedWords message, c.toNat ≤ 127 ∧
      isAsciiControl c = false := by
    intro c hc
    rcases mem_joinedWords hc with rfl | ⟨hmem, hspace⟩
    · exact ⟨by decide, by decide⟩
    · have hfacts := isMessageChar_facts (h.chars c hmem)
      exact ⟨hfacts.1, hfacts.2 hspace⟩
  have hshort : (joinedWords message).len ≤ 512 := by
    calc (joinedWords message).len
      _ = (joinedWords message).length := len_ascii fun c hc => (hchars c hc).1
      _ ≤ message.length := Lib.length_join_words ' ' message
      _ ≤ message.len := Lib.length_le_utf8 message
      _ ≤ 512 := h.short
  constructor
  · intro hplain
    refine ⟨joinedWords_ne_nil.mp hplain.nonempty, ?_⟩
    have hmem : "x-amz-".toList ∈ signingMarkers := List.mem_cons_self ..
    rw [← hsame _ hmem]
    exact hplain.noMarkers _ hmem
  · rintro ⟨hword, hheader⟩
    refine ⟨joinedWords_ne_nil.mpr hword, hshort, fun c hc => (hchars c hc).2,
      ?_⟩
    intro marker hmarker
    rw [hsame marker hmarker]
    rw [signingMarkers, List.mem_cons, List.mem_cons, List.mem_singleton]
      at hmarker
    rcases hmarker with rfl | rfl | rfl
    · exact hheader
    · exact h.noAuthorization
    · exact h.noToken

/-! ## The message in its place -/

/-- The reason phrases of the registered status codes. -/
def reasonPhrases : List String :=
  ["Continue", "Switching Protocols", "Processing", "Early Hints", "OK",
    "Created", "Accepted",
    "Non Authoritative Information", "No Content", "Reset Content",
      "Partial Content", "Multi-Status",
    "Already Reported", "IM Used", "Multiple Choices", "Moved Permanently",
      "Found", "See Other",
    "Not Modified", "Use Proxy", "Temporary Redirect", "Permanent Redirect",
      "Bad Request", "Unauthorized",
    "Payment Required", "Forbidden", "Not Found", "Method Not Allowed",
      "Not Acceptable",
    "Proxy Authentication Required", "Request Timeout", "Conflict", "Gone",
      "Length Required",
    "Precondition Failed", "Payload Too Large", "URI Too Long",
      "Unsupported Media Type",
    "Range Not Satisfiable", "Expectation Failed", "I'm a teapot",
      "Misdirected Request",
    "Unprocessable Entity", "Locked", "Failed Dependency", "Too Early",
      "Upgrade Required",
    "Precondition Required", "Too Many Requests",
      "Request Header Fields Too Large",
    "Unavailable For Legal Reasons", "Internal Server Error", "Not Implemented",
      "Bad Gateway",
    "Service Unavailable", "Gateway Timeout", "HTTP Version Not Supported",
      "Variant Also Negotiates",
    "Insufficient Storage", "Loop Detected", "Not Extended",
      "Network Authentication Required"]

/-- A short text without control characters that names nothing. -/
def isPlainText (text : Str) : Bool :=
  text.len ≤ 64 && (text.all fun c => !isAsciiControl c) &&
    signingMarkers.all fun marker =>
      !Str.containsText (toAsciiLowercase text) marker

theorem isPlainText_facts {text : Str} (h : isPlainText text = true) :
    text.len ≤ 64 ∧ (∀ c ∈ text, isAsciiControl c = false) ∧
    ∀ marker ∈ signingMarkers, ¬Mentions text marker := by
  rw [isPlainText, Bool.and_eq_true, Bool.and_eq_true, decide_eq_true_eq,
    List.all_eq_true, List.all_eq_true] at h
  obtain ⟨⟨hshort, hcontrol⟩, hmarkers⟩ := h
  refine ⟨hshort, fun c hc => by simpa using hcontrol c hc,
    fun marker hmarker => ?_⟩
  rw [mentions_iff, Bool.not_eq_true]
  simpa using hmarkers marker hmarker

/-- `HttpText.canonicalReason` has the registered phrases. -/
def RegisteredReasons (text : HttpText) : Prop :=
  ∀ status reason, text.canonicalReason status = some reason →
    reason ∈ reasonPhrases.map String.toList

theorem isPlainText_reason {text : HttpText} (h : RegisteredReasons text)
    (status : Nat) :
    isPlainText
      ((text.canonicalReason status).getD "<unknown status code>".toList) =
        true := by
  have hall : ((reasonPhrases.map String.toList).all isPlainText) = true := by
    decide +kernel
  cases hreason : text.canonicalReason status with
  | none => decide +kernel
  | some reason =>
      exact List.all_eq_true.mp hall reason (h status reason hreason)

/-- What stands in for a message: the number of a status code, and its
reason. -/
theorem plain_fallback {text : HttpText} (h : RegisteredReasons text)
    {status : Nat} (hstatus : status < 1000) :
    PlainMessage
      ("S3 request failed with HTTP status ".toList ++ text.status status) := by
  obtain ⟨hreasonShort, hreasonControl, hreasonMarkers⟩ :=
    isPlainText_facts (isPlainText_reason h status)
  obtain ⟨hfrontShort, hfrontControl, hfrontMarkers⟩ :=
    @isPlainText_facts "S3 request failed with HTTP status".toList
      (by decide +kernel)
  have hdigit : ∀ c ∈ decimal status, c.isDigit = true := fun c hc =>
    Nat.isDigit_of_mem_toDigits (by decide) (by decide) hc
  have hascii : ∀ c ∈ decimal status, c.toNat ≤ 127 := by
    intro c hc
    exact ascii_of_isAlphanum
      (by rw [Char.isAlphanum, hdigit c hc, Bool.or_true])
  have hdigits : (decimal status).len ≤ 3 := by
    rw [len_ascii hascii]
    exact (Nat.length_toDigits_le_iff (by decide) (by decide)).mpr hstatus
  have hsplit :
      "S3 request failed with HTTP status ".toList ++ text.status status =
      "S3 request failed with HTTP status".toList ++
        ' ' :: (decimal status ++
          ' ' :: (text.canonicalReason status).getD
              "<unknown status code>".toList) := by
    have hfront : "S3 request failed with HTTP status ".toList =
        "S3 request failed with HTTP status".toList ++ [' '] := by decide
    rw [hfront, List.append_assoc, List.singleton_append, HttpText.status]
  rw [hsplit]
  refine ⟨by simp, ?_, ?_, ?_⟩
  · have hspace : ∀ t : Str, Str.len (' ' :: t) = 1 + t.len :=
      fun t => Str.len_append [' '] t
    rw [Str.len_append, hspace, Str.len_append, hspace]
    omega
  · intro c hc
    rcases List.mem_append.mp hc with hc | hc
    · exact hfrontControl c hc
    rcases List.mem_cons.mp hc with rfl | hc
    · decide
    rcases List.mem_append.mp hc with hc | hc
    · exact Lib.forall_ascii
        (P := fun c => c.isDigit = true → isAsciiControl c = false)
        (by decide +kernel) (hascii c hc) (hdigit c hc)
    rcases List.mem_cons.mp hc with rfl | hc
    · decide
    · exact hreasonControl c hc
  · intro marker hmarker
    have hkind := isMarker_of_mem hmarker
    rw [mentions_append_space hkind, mentions_append_space hkind, not_or,
      not_or]
    refine ⟨hfrontMarkers marker hmarker, ?_, hreasonMarkers marker hmarker⟩
    -- a part of a number is digits, and no marker begins with one
    rintro ⟨part, hinfix, rfl⟩
    obtain ⟨c, rest, rfl⟩ :=
      List.exists_cons_of_ne_nil (part_of_marker hkind rfl).1
    have hc : c ∈ decimal status := hinfix.subset (List.mem_cons_self ..)
    have hlower := (hkind.2 c.toLower (List.mem_cons_self ..)).2
    have hsame : c.toLower.isDigit = true :=
      Lib.forall_ascii
        (P := fun c => c.isDigit = true → c.toLower.isDigit = true)
        (by decide +kernel) (hascii c hc) (hdigit c hc)
    rw [hsame] at hlower
    cases hlower

/-! ## What an error says -/

section Says

variable (text : HttpText) (status : Nat) (headers : HeaderMap)
  (parsed : Option ParsedS3Error) (now : Int)

theorem serviceError_message :
    (serviceError text status headers parsed now).message =
      ((parsed.bind ParsedS3Error.message).bind sanitizeServiceMessage).getD
        ("S3 request failed with HTTP status ".toList ++
          text.status status) := by
  rw [serviceError]
  split
  · split
    · rfl
    · rfl
  · rfl

theorem serviceError_fields :
    (serviceError text status headers parsed now).code =
      parsed.bind ParsedS3Error.code ∧
      (serviceError text status headers parsed now).requestId =
        (headerText headers "x-amz-request-id".toList).or
          (parsed.bind ParsedS3Error.requestId) ∧
      (serviceError text status headers parsed now).hostId =
        (headerText headers "x-amz-id-2".toList).or
          (parsed.bind ParsedS3Error.hostId) := by
  rw [serviceError]
  split
  · split
    · exact ⟨rfl, rfl, rfl⟩
    · exact ⟨rfl, rfl, rfl⟩
  · exact ⟨rfl, rfl, rfl⟩

/-- The message of an error is plain, unless the document has one that the
filter accepts and that is blank or names a signing header. -/
theorem serviceError_message_iff (hreasons : RegisteredReasons text)
    (hstatus : status < 1000) :
    PlainMessage (serviceError text status headers parsed now).message ↔
      ∀ message, parsed.bind ParsedS3Error.message = some message →
      Accepted message →
        (∃ c ∈ message, isAsciiWhitespace c = false) ∧
        ¬Mentions message "x-amz-".toList := by
  rw [serviceError_message]
  cases hmessage : parsed.bind ParsedS3Error.message with
  | none =>
      refine iff_of_true (plain_fallback hreasons hstatus) ?_
      intro message hnone
      cases hnone
  | some message =>
      rw [Option.bind_some, sanitizeServiceMessage_eq]
      by_cases haccepted : Accepted message
      · rw [if_pos haccepted, Option.getD_some, plain_joinedWords_iff haccepted]
        constructor
        · intro hplain message' hsome _
          cases hsome
          exact hplain
        · intro hplain
          exact hplain message rfl haccepted
      · rw [if_neg haccepted, Option.getD_none]
        refine iff_of_true (plain_fallback hreasons hstatus) ?_
        intro message' hsome haccepted'
        cases hsome
        exact absurd haccepted' haccepted

/-! ## The code and the identifiers -/

/-- A diagnostic text as `header_text` asks for it. -/
structure CleanText (value : Str) : Prop where
  nonempty : value ≠ []
  short : value.len ≤ 1024
  noControl : ∀ c ∈ value, isAsciiControl c = false

/-- A field that is clean when it is there. -/
def CleanField (field : Option Str) : Prop :=
  ∀ value, field = some value → CleanText value

/-- A header of this name has a value that is clean text. -/
def CarriesText (headers : HeaderMap) (name : Str) : Prop :=
  ∃ header value, headers.get name = some header ∧ header.toStr = some value ∧
    CleanText value

theorem cleanText_iff {value : Str} :
    CleanText value ↔
      (!value.isEmpty && value.len ≤ 1024 && value.all fun c =>
        !isAsciiControl c) = true := by
  rw [Bool.and_eq_true, Bool.and_eq_true, Bool.not_eq_true',
    List.isEmpty_eq_false_iff, decide_eq_true_eq,
    List.all_eq_true]
  constructor
  · rintro ⟨hnonempty, hshort, hcontrol⟩
    exact ⟨⟨hnonempty, hshort⟩, fun c hc => by rw [hcontrol c hc]; rfl⟩
  · rintro ⟨⟨hnonempty, hshort⟩, hcontrol⟩
    exact ⟨hnonempty, hshort, fun c hc => by simpa using hcontrol c hc⟩

variable {headers}

theorem headerText_eq_some {name value : Str}
    (h : headerText headers name = some value) : CleanText value := by
  rw [headerText, Option.filter_eq_some_iff] at h
  exact cleanText_iff.mpr h.2

theorem headerText_eq_none {name : Str} : headerText headers name = none ↔
    ¬CarriesText headers name := by
  rw [headerText, Option.filter_eq_none_iff]
  constructor
  · rintro h ⟨header, value, hget, hvalue, hclean⟩
    refine h value ?_ (cleanText_iff.mp hclean)
    rw [hget, Option.bind_some, hvalue]
  · intro h value hvalue hclean
    obtain ⟨header, hget, htext⟩ := Option.bind_eq_some_iff.mp hvalue
    exact h ⟨header, value, hget, htext, cleanText_iff.mpr hclean⟩

/-- A field with a header in front of it is clean unless the header is not
there. -/
theorem cleanField_or_iff {name : Str} {field : Option Str} :
    CleanField ((headerText headers name).or field) ↔
    ¬CarriesText headers name → CleanField field := by
  rw [← headerText_eq_none]
  cases htext : headerText headers name with
  | none =>
      rw [Option.none_or]
      exact ⟨fun h _ => h, fun h => h rfl⟩
  | some value =>
      rw [Option.some_or]
      refine iff_of_true ?_ ?_
      · intro value' hsome
        cases hsome
        exact headerText_eq_some htext
      · intro hnone
        cases hnone

variable (headers)

/-- The code is clean when the one of the document is; an identifier, when there
is a clean header or the one of the document is. -/
theorem serviceError_fields_iff :
    CleanField (serviceError text status headers parsed now).code ∧
        CleanField (serviceError text status headers parsed now).requestId ∧
        CleanField (serviceError text status headers parsed now).hostId ↔
      CleanField (parsed.bind ParsedS3Error.code) ∧
        (¬CarriesText headers "x-amz-request-id".toList →
          CleanField (parsed.bind ParsedS3Error.requestId)) ∧
        (¬CarriesText headers "x-amz-id-2".toList →
          CleanField (parsed.bind ParsedS3Error.hostId)) := by
  obtain ⟨hcode, hrequest, hhost⟩ :=
    serviceError_fields text status headers parsed now
  rw [hcode, hrequest, hhost, cleanField_or_iff, cleanField_or_iff]

end Says

/-- The reason of one code. -/
def forbiddenText : HttpText where
  parseHttpDate := fun _ => none
  canonicalReason := fun status => if status = 403 then some "Forbidden".toList
    else none

theorem registered_forbiddenText : RegisteredReasons forbiddenText := by
  intro status reason h
  dsimp only [forbiddenText] at h
  split at h
  · cases h
    exact List.mem_map_of_mem (by decide)
  · cases h

def messageOnly (message : Str) : ParsedS3Error :=
  ⟨none, some message, none, none, none, none⟩

theorem serviceError_message_iff_denied :
    PlainMessage
      (serviceError forbiddenText 403 HeaderMap.new
        (some (messageOnly "access denied".toList)) 0).message :=
  (serviceError_message_iff forbiddenText 403 HeaderMap.new
    (some (messageOnly "access denied".toList)) 0
    registered_forbiddenText (by decide)).mpr fun message hsome _ => by
      cases hsome
      exact ⟨⟨'a', by decide, by decide⟩, by decide⟩

/-- A signing header named in lower case, and a blank message. -/
theorem serviceError_message_named :
    (serviceError forbiddenText 403 HeaderMap.new
        (some (messageOnly "signed with x-amz-signature 5f2a".toList))
          0).message =
      "signed with x-amz-signature 5f2a".toList ∧
    ¬PlainMessage (serviceError forbiddenText 403 HeaderMap.new
        (some (messageOnly "signed with x-amz-signature 5f2a".toList))
          0).message ∧
    ¬PlainMessage
      (serviceError forbiddenText 403 HeaderMap.new
        (some (messageOnly " ".toList)) 0).message := by
  have hnamed : (serviceError forbiddenText 403 HeaderMap.new
      (some (messageOnly "signed with x-amz-signature 5f2a".toList))
        0).message =
        "signed with x-amz-signature 5f2a".toList := by
    decide +kernel
  have hblank :
      (serviceError forbiddenText 403 HeaderMap.new
          (some (messageOnly " ".toList)) 0).message = [] := by
    decide +kernel
  refine ⟨hnamed, ?_, ?_⟩
  · rw [hnamed]
    intro hplain
    exact hplain.noMarkers "x-amz-".toList (List.mem_cons_self ..) (by decide)
  · rw [hblank]
    intro hplain
    exact hplain.nonempty rfl

/-! ## From the document on -/

/-- The elements of an error document that are read. -/
structure ErrorDocument where
  code : Option Str
  message : Option Str
  requestId : Option Str
  hostId : Option Str
  resource : Option Str
  region : Option Str

/-- `parse_s3_error`; the XML library takes the text to the document. -/
def parseS3Error (xml : XmlReader) (deserialize : Str → Option ErrorDocument)
    (body : Bytes) (maximum : Nat) :
    Except ProtocolError ParsedS3Error := do
  expectRoot xml body maximum "Error"
  let parsed ← parseBounded deserialize body maximum
  return { code := parsed.code, message := parsed.message,
           requestId := parsed.requestId,
           hostId := parsed.hostId, resource := parsed.resource, region :=
             parsed.region }

/-- The document of an error of plain elements. -/
def readErrorDocument (text : Str) : Option ErrorDocument :=
  (Lib.Xml.read text).bind fun
    | .char _ => none
    | .element _ content =>
        some { code := fieldText "Code" content,
               message := fieldText "Message" content,
               requestId := fieldText "RequestId" content, hostId :=
                 fieldText "HostId" content,
               resource := fieldText "Resource" content, region :=
                 fieldText "Region" content }

/-- A reader that finds the root of such a document. -/
def plainReader : XmlReader where
  rootName := fun text =>
    match Lib.Xml.read text with
    | some (.element name _) => .ok name
    | _ => .error .library
  listBucket := fun _ => none
  listUploads := fun _ => none
  listParts := fun _ => none
  parseRfc3339 := fun _ => .error []
  utf8Error := fun _ => []

def forgedDocument : Bytes :=
  Lib.utf8
    "<Error><Code>No&#10;Such</Code><RequestId>a&#10;b</RequestId></Error>".toList

/-- A body whose code and request identifier run over two lines each. -/
theorem serviceError_fields_forged :
    ∃ parsed, parseS3Error plainReader readErrorDocument forgedDocument 4096 =
      .ok parsed ∧
      (serviceError forbiddenText 403 HeaderMap.new (some parsed) 0).code =
        some "No\nSuch".toList ∧
      ¬CleanField
        (serviceError forbiddenText 403 HeaderMap.new (some parsed) 0).code ∧
      ¬CleanField
        (serviceError forbiddenText 403 HeaderMap.new
          (some parsed) 0).requestId := by
  have hparsed :
      parseS3Error plainReader readErrorDocument forgedDocument 4096 =
      .ok ⟨some "No\nSuch".toList, none, some "a\nb".toList, none, none,
          none⟩ := by
    decide +kernel
  refine ⟨_, hparsed, ?_, ?_, ?_⟩
  · decide +kernel
  · intro h
    exact absurd
      ((h "No\nSuch".toList (by decide +kernel)).noControl '\n' (by decide))
        (by decide)
  · intro h
    exact absurd
      ((h "a\nb".toList (by decide +kernel)).noControl '\n' (by decide))
        (by decide)

end S3Wire
