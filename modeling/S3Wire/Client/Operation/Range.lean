/-
# `S3Wire.Client.Operation.Range` — which texts are ranges

`parse_content_range` splits the header at its first separators and hands the
pieces to the integer parser of the standard library, which also reads a number
with a plus sign in front. `RangeText` is the grammar of a range over the texts
that count as numbers: the parser reads `RangeText SignedDigits`
(`parseRangeText_iff`), the header is meant to hold `RangeText Digits`, and the
two differ in the plus signs alone (`rangeText_digits_iff`).
-/
import S3Wire.Client.Operation.Retrieve
import S3Wire.Client.Recompute

namespace S3Wire

/-! ## Numbers -/

/-- Digits, and the number that they denote. -/
def Digits (text : Str) (n : UInt64) : Prop :=
  text ≠ [] ∧ (∀ c ∈ text, c.isDigit = true) ∧
    Nat.ofDigits 10 (text.reverse.map fun c => c.toNat - '0'.toNat) = n.toNat

/-- Digits, or digits behind a plus sign. -/
def SignedDigits (text : Str) (n : UInt64) : Prop :=
  Digits text n ∨ ∃ digits, text = '+' :: digits ∧ Digits digits n

section Numbers

variable {text digits : Str} {n : UInt64}

theorem foldl_eq_ofDigits (text : Str) :
    text.foldl (fun n c => 10 * n + (c.toNat - '0'.toNat)) 0 =
      Nat.ofDigits 10 (text.reverse.map fun c => c.toNat - '0'.toNat) := by
  induction text using List.reverseRecOn with
  | nil => rfl
  | append_singleton text c ih =>
      rw [List.foldl_append, ih, List.reverse_append, List.reverse_singleton,
        List.singleton_append, List.map_cons,
        Nat.ofDigits_cons]
      exact Nat.add_comm _ _

theorem plus_not_digit : '+'.isDigit = false := by decide

theorem Digits.head_ne_plus (h : Digits text n) : text.head? ≠ some '+' := by
  intro hhead
  have hdigit := h.2.1 '+' (List.mem_of_mem_head? hhead)
  rw [plus_not_digit] at hdigit
  cases hdigit

theorem signedDigits_iff :
    SignedDigits text n ↔
    Digits (if text.head? = some '+' then text.tail else text) n := by
  by_cases hhead : text.head? = some '+'
  · rw [if_pos hhead]
    obtain ⟨digits, rfl⟩ := List.head?_eq_some_iff.mp hhead
    constructor
    · rintro (h | ⟨digits', hcons, h⟩)
      · exact absurd hhead h.head_ne_plus
      · cases hcons
        exact h
    · intro h
      exact .inr ⟨digits, rfl, h⟩
  · rw [if_neg hhead]
    constructor
    · rintro (h | ⟨digits, rfl, -⟩)
      · exact h
      · exact absurd rfl hhead
    · exact .inl

theorem parseRangeNumber_iff : parseRangeNumber text = .ok n ↔
    SignedDigits text n := by
  rw [signedDigits_iff, parseRangeNumber, parseU64]
  generalize (if text.head? = some '+' then text.tail else text) = digits
  dsimp only
  rw [foldl_eq_ofDigits, Digits]
  by_cases hdigits : digits ≠ [] ∧ ∀ c ∈ digits, c.isDigit = true
  · have hguard : ¬(digits.isEmpty || !digits.all Char.isDigit) = true := by
      have hall : digits.all Char.isDigit = true :=
        List.all_eq_true.mpr hdigits.2
      rw [hall, List.isEmpty_eq_false_iff.mpr hdigits.1]
      exact Bool.false_ne_true
    rw [if_neg hguard]
    by_cases hfits :
      Nat.ofDigits 10 (digits.reverse.map fun c => c.toNat - '0'.toNat) < 2 ^ 64
    · rw [if_pos hfits]
      constructor
      · intro h
        have hn := Except.ok.inj h
        rw [← hn, UInt64.toNat_ofNat_of_lt' hfits]
        exact ⟨hdigits.1, hdigits.2, rfl⟩
      · rintro ⟨-, -, h⟩
        show Except.ok _ = Except.ok n
        rw [h, UInt64.ofNat_toNat]
    · rw [if_neg hfits]
      constructor
      · intro h
        cases h
      · rintro ⟨-, -, h⟩
        rw [h] at hfits
        exact absurd n.toNat_lt hfits
  · have hguard : (digits.isEmpty || !digits.all Char.isDigit) = true := by
      by_contra hnot
      rw [Bool.not_eq_true, Bool.or_eq_false_iff, Bool.not_eq_false',
        List.all_eq_true,
        List.isEmpty_eq_false_iff] at hnot
      exact hdigits hnot
    rw [if_pos hguard]
    constructor
    · intro h
      cases h
    · rintro ⟨hne, hall, -⟩
      exact absurd ⟨hne, hall⟩ hdigits

end Numbers

/-! ## Ranges -/

/-- The texts of a range: its first and its last octet, in order, and a star, or
the length of the whole around them. -/
inductive RangeText (Number : Str → UInt64 → Prop) :
    Str → UInt64 × UInt64 × Option UInt64 → Prop
  | unknown {first last : Str} {start stop : UInt64} : Number first start →
  Number last stop → start ≤ stop →
      RangeText Number
        ("bytes ".toList ++ (first ++ '-' :: (last ++ '/' :: ['*'])))
          (start, stop, none)
  | known {first last whole : Str} {start stop complete : UInt64} :
      Number first start → Number last stop →
      Number whole complete → start ≤ stop → stop < complete →
      RangeText Number
        ("bytes ".toList ++ (first ++ '-' :: (last ++ '/' :: whole)))
          (start, stop, some complete)

section Ranges

variable {text : Str} {range : UInt64 × UInt64 × Option UInt64}
  {Number Number' : Str → UInt64 → Prop}

theorem RangeText.mono (hmono : ∀ text n, Number text n → Number' text n)
    (h : RangeText Number text range) :
    RangeText Number' text range := by
  cases h with
  | unknown hstart hstop horder =>
      exact .unknown (hmono _ _ hstart) (hmono _ _ hstop) horder
  | known hstart hstop hcomplete horder hinside =>
      exact .known (hmono _ _ hstart) (hmono _ _ hstop)
        (hmono _ _ hcomplete) horder hinside

/-- The characters of a number. -/
def isSignedChar (c : Char) : Bool := c == '+' || c.isDigit

theorem SignedDigits.chars {n : UInt64} (h : SignedDigits text n) :
    ∀ c ∈ text, isSignedChar c = true := by
  intro c hc
  rcases h with h | ⟨digits, rfl, h⟩
  · rw [isSignedChar, h.2.1 c hc, Bool.or_true]
  · rcases List.mem_cons.mp hc with rfl | hc
    · rfl
    · rw [isSignedChar, h.2.1 c hc, Bool.or_true]

theorem SignedDigits.not_mem {n : UInt64} {c : Char} (h : SignedDigits text n)
    (hc : isSignedChar c = false) :
    c ∉ text := by
  intro hmem
  rw [h.chars c hmem] at hc
  cases hc

theorem dash_not_signed : isSignedChar '-' = false := by decide

theorem slash_not_signed : isSignedChar '/' = false := by decide

theorem star_not_signed : isSignedChar '*' = false := by decide

/-- Two numbers in order are read, and then what stands behind the slash. -/
theorem parseRangeText_numbers {first last whole : Str} {start stop : UInt64}
    (hstart : SignedDigits first start) (hstop : SignedDigits last stop)
    (horder : start ≤ stop) :
    parseRangeText
      ("bytes ".toList ++ (first ++ '-' :: (last ++ '/' :: whole))) =
      if whole = "*".toList then .ok (start, stop, none)
      else parseRangeNumber whole >>= fun complete =>
        if complete ≤ stop then
          .error (S3Error.invalidResponse
            "S3 returned an inconsistent content-range header")
        else .ok (start, stop, some complete) := by
  have hslash : '/' ∉ first ++ '-' :: last := by
    rw [List.mem_append, List.mem_cons]
    rintro (hmem | hmem | hmem)
    · exact hstart.not_mem slash_not_signed hmem
    · cases hmem
    · exact hstop.not_mem slash_not_signed hmem
  have hsplit : Lib.splitOnce '/' (first ++ '-' :: (last ++ '/' :: whole)) =
      some (first ++ '-' :: last, whole) := by
    rw [← List.cons_append, ← List.append_assoc,
      Lib.splitOnce_append whole hslash]
  rw [parseRangeText, Lib.dropPrefix?_eq_some.mpr rfl]
  dsimp only
  rw [hsplit]
  dsimp only
  rw [Lib.splitOnce_append _ (hstart.not_mem dash_not_signed)]
  dsimp only
  rw [parseRangeNumber_iff.mpr hstart, parseRangeNumber_iff.mpr hstop]
  exact if_neg (UInt64.not_lt.mpr horder)

theorem parseRangeText_of_rangeText (h : RangeText SignedDigits text range) :
    parseRangeText text = .ok range := by
  cases h with
  | unknown hstart hstop horder =>
      rw [parseRangeText_numbers hstart hstop horder]
      exact if_pos rfl
  | known hstart hstop hcomplete horder hinside =>
      rw [parseRangeText_numbers hstart hstop horder, if_neg,
        parseRangeNumber_iff.mpr hcomplete]
      · exact if_neg (UInt64.not_le.mpr hinside)
      · rintro rfl
        exact hcomplete.not_mem star_not_signed (List.mem_singleton.mpr rfl)

theorem rangeText_of_parseRangeText (h : parseRangeText text = .ok range) :
    RangeText SignedDigits text range := by
  rw [parseRangeText] at h
  split at h
  · cases h
  next remainder hleading =>
  obtain rfl := Lib.dropPrefix?_eq_some.mp hleading
  split at h
  · cases h
  next octets complete hslash =>
  obtain ⟨rfl, -⟩ := Lib.splitOnce_eq_some hslash
  split at h
  · cases h
  next first last hdash =>
  obtain ⟨rfl, -⟩ := Lib.splitOnce_eq_some hdash
  obtain ⟨start, hstart, h⟩ := Lib.bind_ok h
  obtain ⟨stop, hstop, h⟩ := Lib.bind_ok h
  rw [parseRangeNumber_iff] at hstart hstop
  rw [List.append_assoc, List.cons_append]
  split at h
  · cases h
  next horder =>
  split at h
  · next hstar =>
    cases h
    subst hstar
    exact .unknown hstart hstop (UInt64.not_lt.mp horder)
  · obtain ⟨whole, hwhole, h⟩ := Lib.bind_ok h
    rw [parseRangeNumber_iff] at hwhole
    split at h
    · cases h
    next hinside =>
    cases h
    exact .known hstart hstop hwhole (UInt64.not_lt.mp horder)
      (UInt64.not_le.mp hinside)

theorem parseRangeText_iff : parseRangeText text = .ok range ↔
    RangeText SignedDigits text range :=
  ⟨rangeText_of_parseRangeText, parseRangeText_of_rangeText⟩

theorem SignedDigits.digits {n : UInt64} (h : SignedDigits text n)
    (hplus : '+' ∉ text) : Digits text n := by
  rcases h with h | ⟨digits, rfl, -⟩
  · exact h
  · exact absurd (List.mem_cons_self ..) hplus

theorem Digits.not_mem_plus {n : UInt64} (h : Digits text n) : '+' ∉ text := by
  intro hmem
  have hdigit := h.2.1 '+' hmem
  rw [plus_not_digit] at hdigit
  cases hdigit

theorem plus_mem_range {first last whole : Str} :
    '+' ∈ "bytes ".toList ++ (first ++ '-' :: (last ++ '/' :: whole)) ↔
      '+' ∈ first ∨ '+' ∈ last ∨ '+' ∈ whole := by
  have hbytes : '+' ∉ "bytes ".toList := by decide
  have hdash : '+' ≠ '-' := by decide
  have hslash : '+' ≠ '/' := by decide
  rw [List.mem_append, List.mem_append, List.mem_cons, List.mem_append,
    List.mem_cons]
  tauto

theorem rangeText_digits_iff :
    RangeText Digits text range ↔ RangeText SignedDigits text range ∧
    '+' ∉ text := by
  constructor
  · intro h
    refine ⟨h.mono fun _ _ => .inl, ?_⟩
    cases h with
    | unknown hstart hstop horder =>
        rw [plus_mem_range]
        rintro (hmem | hmem | hmem)
        · exact hstart.not_mem_plus hmem
        · exact hstop.not_mem_plus hmem
        · cases List.mem_singleton.mp hmem
    | known hstart hstop hcomplete horder hinside =>
        rw [plus_mem_range]
        rintro (hmem | hmem | hmem)
        · exact hstart.not_mem_plus hmem
        · exact hstop.not_mem_plus hmem
        · exact hcomplete.not_mem_plus hmem
  · rintro ⟨h, hplus⟩
    cases h with
    | unknown hstart hstop horder =>
        rw [plus_mem_range, not_or, not_or] at hplus
        exact .unknown (hstart.digits hplus.1) (hstop.digits hplus.2.1) horder
    | known hstart hstop hcomplete horder hinside =>
        rw [plus_mem_range, not_or, not_or] at hplus
        exact .known (hstart.digits hplus.1) (hstop.digits hplus.2.1)
          (hcomplete.digits hplus.2.2) horder hinside

end Ranges

/-! ## The header -/

/-- The octets of a header value are the text of a range. -/
def Carries (Number : Str → UInt64 → Prop) (value : HeaderValue)
    (range : UInt64 × UInt64 × Option UInt64) : Prop :=
  ∃ text, value.bytes = Lib.utf8 text ∧ RangeText Number text range

/-- As a header this value is read as the range that it carries, and is refused
when it carries none. -/
def ReadAsRange (Number : Str → UInt64 → Prop) (value : HeaderValue) : Prop :=
  ∀ headers : HeaderMap, headers.get "content-range" = some value →
    (∀ range, parseContentRange headers = .ok (some range) ↔
      Carries Number value range) ∧
      parseContentRange headers ≠ .ok none

section Header

variable {value : HeaderValue} {text : Str}
  {range : UInt64 × UInt64 × Option UInt64}

theorem toStr_eq_some :
    value.toStr = some text ↔ value.bytes = Lib.utf8 text ∧
    value.bytes.all isVisibleByte = true := by
  have hascii : ∀ b : UInt8, isVisibleByte b = true → b.toNat ≤ 127 :=
    Lib.forall_byte (by decide +kernel)
  have hbytes (hvisible : value.bytes.all isVisibleByte = true) :
      Lib.utf8 (asciiText value.bytes) = value.bytes :=
    utf8_asciiText fun b hb => hascii b (List.all_eq_true.mp hvisible b hb)
  rw [HeaderValue.toStr]
  by_cases hvisible : value.bytes.all isVisibleByte = true
  · rw [if_pos hvisible, Option.some_inj]
    constructor
    · rintro rfl
      exact ⟨(hbytes hvisible).symm, hvisible⟩
    · rintro ⟨htext, -⟩
      exact Lib.utf8_injective ((hbytes hvisible).trans htext)
  · rw [if_neg hvisible]
    constructor
    · intro h
      cases h
    · rintro ⟨-, h⟩
      exact absurd h hvisible

theorem isVisibleByte_ofNat : ∀ n < 127, 32 ≤ n →
    isVisibleByte (UInt8.ofNat n) = true := by decide +kernel

theorem isSignedChar_visible {c : Char} (h : isSignedChar c = true) :
    32 ≤ c.toNat ∧ c.toNat ≤ 126 := by
  rw [isSignedChar, Bool.or_eq_true, beq_iff_eq] at h
  rcases h with rfl | h
  · decide
  · have hrange :
      '0' ≤ c ∧ c ≤ '9' := by simpa [Char.isDigit, Char.le_def] using h
    have hlow : 48 ≤ c.toNat := hrange.1
    have hhigh : c.toNat ≤ 57 := hrange.2
    omega

theorem chars_of_range (h : RangeText SignedDigits text range) {c : Char}
    (hc : c ∈ text) :
    c ∈ "bytes ".toList ∨ isSignedChar c = true ∨ c = '-' ∨ c = '/' ∨
    c = '*' := by
  cases h with
  | unknown hstart hstop horder =>
      have hfirst := hstart.chars c
      have hlast := hstop.chars c
      rw [List.mem_append, List.mem_append, List.mem_cons, List.mem_append,
        List.mem_cons, List.mem_singleton] at hc
      tauto
  | known hstart hstop hcomplete horder hinside =>
      have hfirst := hstart.chars c
      have hlast := hstop.chars c
      have hwhole := hcomplete.chars c
      rw [List.mem_append, List.mem_append, List.mem_cons, List.mem_append,
        List.mem_cons] at hc
      tauto

theorem unit_visible :
    ("bytes ".toList.all fun c => 32 ≤ c.toNat && c.toNat ≤ 126) = true := by
      decide

theorem visible_of_range (h : RangeText SignedDigits text range) :
    (Lib.utf8 text).all isVisibleByte = true := by
  have hvisible : ∀ c ∈ text, 32 ≤ c.toNat ∧ c.toNat ≤ 126 := by
    intro c hc
    rcases chars_of_range h hc with hunit | hsigned | rfl | rfl | rfl
    · simpa using List.all_eq_true.mp unit_visible c hunit
    · exact isSignedChar_visible hsigned
    · decide
    · decide
    · decide
  have hascii : ∀ c ∈ text, c.toNat ≤ 127 :=
    fun c hc => Nat.le_succ_of_le (hvisible c hc).2
  rw [utf8_ascii hascii]
  refine List.all_eq_true.mpr ?_
  intro b hb
  obtain ⟨c, hc, rfl⟩ := List.mem_map.mp hb
  obtain ⟨hlow, hhigh⟩ := hvisible c hc
  exact isVisibleByte_ofNat c.toNat (Nat.lt_succ_of_le hhigh) hlow

theorem parseContentRange_text {headers : HeaderMap}
    (hvalue : headers.get "content-range" = some value)
    (htext : value.toStr = some text) :
    parseContentRange headers =
      (parseRangeText text >>= fun range => .ok (some range)) := by
  rw [parseContentRange, responseHeader, hvalue]
  dsimp only
  rw [htext]
  rfl

theorem parseContentRange_nonText {headers : HeaderMap}
    (hvalue : headers.get "content-range" = some value)
    (htext : value.toStr = none) :
    parseContentRange headers =
      .error (S3Error.invalidResponse
        "S3 returned a non-text response header") := by
  rw [parseContentRange, responseHeader, hvalue]
  dsimp only
  rw [htext]
  rfl

theorem parseContentRange_signed : ReadAsRange SignedDigits value := by
  intro headers hvalue
  cases htext : value.toStr with
  | none =>
      rw [parseContentRange_nonText hvalue htext]
      refine ⟨fun range => ⟨?_, ?_⟩, ?_⟩
      · intro h
        cases h
      · rintro ⟨text, hbytes, hrange⟩
        have hvisible := visible_of_range hrange
        rw [← hbytes] at hvisible
        rw [toStr_eq_some.mpr ⟨hbytes, hvisible⟩] at htext
        cases htext
      · intro h
        cases h
  | some text =>
      obtain ⟨hbytes, -⟩ := toStr_eq_some.mp htext
      rw [parseContentRange_text hvalue htext]
      refine ⟨fun range => ⟨?_, ?_⟩, ?_⟩
      · intro h
        obtain ⟨read, hread, h⟩ := Lib.bind_ok h
        cases h
        exact ⟨text, hbytes, parseRangeText_iff.mp hread⟩
      · rintro ⟨text', hbytes', hrange⟩
        obtain rfl := Lib.utf8_injective (hbytes.symm.trans hbytes')
        rw [parseRangeText_iff.mpr hrange]
        rfl
      · intro h
        obtain ⟨read, -, h⟩ := Lib.bind_ok h
        cases h

/-- A map with one header. -/
def rangeHeaders (value : HeaderValue) : HeaderMap :=
  HeaderMap.new.insert
    ⟨"content-range".toList, contentRange_ne_nil, contentRange_token⟩ value

theorem get_rangeHeaders (value : HeaderValue) :
    (rangeHeaders value).get "content-range" = some value := by
  rw [rangeHeaders, HeaderMap.get_insert]
  exact if_pos rfl

/-- A header value is read as the range of digits that it carries exactly when
it is no range with a plus sign in front of a number. -/
theorem readAsRange_digits_iff (value : HeaderValue) :
    ReadAsRange Digits value ↔
      ¬∃ text range, value.bytes = Lib.utf8 text ∧ '+' ∈ text ∧
      RangeText SignedDigits text range := by
  constructor
  · rintro h ⟨text, range, hbytes, hplus, hrange⟩
    obtain ⟨hstrict, -⟩ := h (rangeHeaders value) (get_rangeHeaders value)
    obtain ⟨hsigned, -⟩ :=
      parseContentRange_signed (rangeHeaders value) (get_rangeHeaders value)
    obtain ⟨text', hbytes', hdigits⟩ :=
      (hstrict range).mp ((hsigned range).mpr ⟨text, hbytes, hrange⟩)
    obtain rfl := Lib.utf8_injective (hbytes.symm.trans hbytes')
    exact (rangeText_digits_iff.mp hdigits).2 hplus
  · intro h headers hvalue
    obtain ⟨hsigned, hnone⟩ := parseContentRange_signed headers hvalue
    refine ⟨fun range => (hsigned range).trans ⟨?_, ?_⟩, hnone⟩
    · rintro ⟨text, hbytes, hrange⟩
      refine ⟨text, hbytes, rangeText_digits_iff.mpr ⟨hrange, ?_⟩⟩
      intro hplus
      exact h ⟨text, range, hbytes, hplus, hrange⟩
    · rintro ⟨text, hbytes, hrange⟩
      exact ⟨text, hbytes, (rangeText_digits_iff.mp hrange).1⟩

theorem plusRange_valid :
    (Lib.utf8 "bytes +0-9/10".toList).all isHeaderValueByte = true := by decide

def plusRange : HeaderValue :=
  ⟨Lib.utf8 "bytes +0-9/10".toList, plusRange_valid⟩

/-- A sign is read over. -/
theorem plusRange_read :
    parseContentRange (rangeHeaders plusRange) = .ok (some (0, 9, some 10)) ∧
      ¬∃ range, Carries Digits plusRange range := by
  refine ⟨rfl, ?_⟩
  rintro ⟨range, text, hbytes, hrange⟩
  obtain rfl := Lib.utf8_injective hbytes
  exact (rangeText_digits_iff.mp hrange).2 (by decide)

end Header

end S3Wire
