/-
# `S3Wire.Signing.Canonical` — the canonical parts of a request

`src/signing/canonical.rs`.  A request is signed through a text that is built
from its parts: an encoded path, a sorted and encoded query, a block of header
lines. Each part has its own alphabet, and that is what these lemmas are about:
none of the parts contains the newline that separates them, no encoded name or
value contains the `&` and `=` of the query, no header name contains the `:` and
`;` of the header block.  So each part determines what it was made of
(`canonicalQuery_inj`, `headerLine_inj`), the path up to its percent-encoding
(`canonicalUriFromEncoded_decode`).

Rust compares strings by their octets; the texts compared here are ASCII, where
this is the order of their characters.
-/
import S3Wire.Error
import S3Wire.Lib.Percent

namespace S3Wire

/-- A parameter, before it is encoded. -/
structure QueryParam where
  name : Str
  value : Str
  deriving DecidableEq, Repr

/-- One header name and value before normalisation. -/
structure Header where
  name : Str
  value : Str
  deriving DecidableEq, Repr

/-- The two texts that the canonical headers make. -/
structure CanonicalHeaders where
  canonical : Str
  signed : Str
  deriving DecidableEq, Repr

/-- Failures of the signing boundary. -/
inductive SigningError where
  | invalidCredentials
  | invalidScope
  | invalidMethod
  | invalidHeaderName
  | invalidHeaderValue
  | missingHostHeader
  | invalidHostHeader
  | invalidPayloadHash
  | invalidEncodedUri
  | reservedHeader
  | reservedQueryParameter
  | invalidExpiry
  | unsupportedPresignMethod
  | timestamp
  deriving DecidableEq, Repr

/-! ## Encoding -/

/-- `u8::is_ascii_alphanumeric`. -/
def isAlphanumericByte (b : UInt8) : Bool :=
  (48 ≤ b && b ≤ 57) || (65 ≤ b && b ≤ 90) || (97 ≤ b && b ≤ 122)

/-- The bytes that are never encoded: letters, digits and `-._~`. -/
def isUnreserved (b : UInt8) : Bool :=
  isAlphanumericByte b || b == 45 || b == 46 || b == 95 || b == 126

def isUnreservedOrSlash (b : UInt8) : Bool := isUnreserved b || b == 47

/-- Percent-encode what is not unreserved. -/
def awsUriEncode (input : Str) (encodeSlash : Bool) : Str :=
  Lib.percentEncode (if encodeSlash then isUnreserved else isUnreservedOrSlash)
    (Lib.utf8 input)

/-- An ASCII character that is one of the bytes of a set. -/
def isCharOf (safe : UInt8 → Bool) (c : Char) : Bool :=
  c.toNat ≤ 127 && safe (UInt8.ofNat c.toNat)

/-- The loop of `canonical_uri_from_encoded`. -/
def canonicalPath : Str → Except SigningError Str
  | [] => .ok []
  | c :: rest =>
      if c = '%' then
        match rest with
        | high :: low :: tail =>
            match Lib.hexValue high, Lib.hexValue low with
            | some high, some low =>
                (canonicalPath tail).map fun canonical =>
                  '%' :: Lib.hexDigit high :: Lib.hexDigit low :: canonical
            | _, _ => .error .invalidEncodedUri
        | _ => .error .invalidEncodedUri
      else if isCharOf isUnreservedOrSlash c then
        (canonicalPath rest).map (c :: ·)
      else (canonicalPath rest).map (awsUriEncode [c] true ++ ·)

/-- The path with the slash it must start with. -/
def rooted (path : Str) : Str :=
  if path.head? = some '/' then path else '/' :: path

/-- The canonical path of a path that is encoded already. -/
def canonicalUriFromEncoded (path : Str) : Except SigningError Str :=
  (canonicalPath path).map fun canonical =>
    if path.head? = some '/' then canonical else '/' :: canonical

/-- Encoded pairs are ordered by name and then by value. -/
def encodedLe (p q : Str × Str) : Prop := toLex p ≤ toLex q

instance : DecidableRel encodedLe :=
  fun p q => inferInstanceAs (Decidable (toLex p ≤ toLex q))

instance : Std.Total encodedLe := ⟨fun p q => le_total (toLex p) (toLex q)⟩

instance : IsTrans (Str × Str) encodedLe := ⟨fun _ _ _ => le_trans⟩

def encodeParam (parameter : QueryParam) : Str × Str :=
  (awsUriEncode parameter.name true, awsUriEncode parameter.value true)

/-- The encoded pairs in order.  Equal pairs are equal texts, so an unstable
sort gives no other list. -/
def encodedQuery (parameters : List QueryParam) : List (Str × Str) :=
  (parameters.map encodeParam).insertionSort encodedLe

def queryField (pair : Str × Str) : Str := pair.1 ++ '=' :: pair.2

/-- The parameters, encoded and in the order of their bytes. -/
def canonicalQuery (parameters : List QueryParam) : Str :=
  ['&'].intercalate ((encodedQuery parameters).map queryField)

/-! ## Headers -/

def isHeaderTokenChar (c : Char) : Bool :=
  c.isAlphanum || c ∈ "!#$%&'*+-.^_`|~".toList

def validHeaderName (name : Str) : Bool :=
  !name.isEmpty && name.all isHeaderTokenChar

/-- The loop of `normalize_header_value`. -/
def normalizeLoop : Str → Str → Bool → Str
  | [], normalized, _ => normalized
  | c :: rest, normalized, pendingSpace =>
      if c = ' ' ∨ c = '\t' then
        normalizeLoop rest normalized (!normalized.isEmpty)
      else normalizeLoop rest
        (normalized ++ (if pendingSpace then [' ', c] else [c])) false

/-- A control character other than the tab. -/
def isForbiddenControl (c : Char) : Bool :=
  (c.toNat < 32 || c.toNat == 127) && c != '\t'

/-- A value without outer blanks, inner ones collapsed. -/
def normalizeHeaderValue (value : Str) : Except SigningError Str :=
  if value.any isForbiddenControl then .error .invalidHeaderValue
  else .ok (normalizeLoop value [] false)

/-- `entry(name).or_default().push(value)`, in a map ordered by name. -/
def pushHeader (name value : Str) : List (Str × List Str) →
    List (Str × List Str)
  | [] => [(name, [value])]
  | (n, values) :: rest =>
      if n = name then (n, values ++ [value]) :: rest
      else if name < n then (name, [value]) :: (n, values) :: rest
      else (n, values) :: pushHeader name value rest

/-- `str::to_ascii_lowercase`. -/
def toAsciiLowercase (s : Str) : Str := s.map Char.toLower

/-- The first loop of `canonical_headers`. -/
def orderHeaders : List Header → List (Str × List Str) →
    Except SigningError (List (Str × List Str))
  | [], ordered => .ok ordered
  | header :: headers, ordered =>
      if !validHeaderName header.name then .error .invalidHeaderName
      else
        match normalizeHeaderValue header.value with
        | .error e => .error e
        | .ok value =>
            orderHeaders headers
              (pushHeader (toAsciiLowercase header.name) value ordered)

/-- The lowercase names with their values joined by commas: what is signed of
the headers. -/
def joinValues (ordered : List (Str × List Str)) : List (Str × Str) :=
  ordered.map fun (name, values) => (name, [','].intercalate values)

def headerLine (entry : Str × Str) : Str := entry.1 ++ ':' :: entry.2

/-- The second loop of `canonical_headers`. -/
def renderHeaders (ordered : List (Str × List Str)) : CanonicalHeaders where
  canonical := Lib.block '\n' ((joinValues ordered).map headerLine)
  signed := [';'].intercalate (ordered.map Prod.fst)

def hostName : Str := "host"

/-- The headers sorted by name, with the names that are signed. -/
def canonicalHeaders (headers : List Header) :
    Except SigningError CanonicalHeaders :=
  match orderHeaders headers [] with
  | .error e => .error e
  | .ok ordered =>
      if ordered.isEmpty then .error .missingHostHeader
      else
        match ordered.find? fun entry => entry.1 == hostName with
        | none => .error .missingHostHeader
        | some (_, values) =>
            if values.length ≠ 1 ∨ values.head? = some [] then
              .error .invalidHostHeader
            else .ok (renderHeaders ordered)

/-! ## The alphabet of encoded texts -/

section Encoded

/-- The characters of an encoded name or value. -/
def isEncodedChar (c : Char) : Bool := isCharOf isUnreserved c || c == '%'

/-- The characters of a canonical path. -/
def isPathChar (c : Char) : Bool := isEncodedChar c || c == '/'

theorem unreserved_safe : Lib.SafeSet isUnreserved :=
  Lib.forall_byte (by decide +kernel)

theorem unreservedOrSlash_safe : Lib.SafeSet isUnreservedOrSlash :=
  Lib.forall_byte (by decide +kernel)

theorem isCharOf_ofNat {safe : UInt8 → Bool} (hs : Lib.SafeSet safe) {b : UInt8}
    (hb : safe b = true) :
    isCharOf safe (Char.ofNat b.toNat) = true := by
  have hlt := (hs b hb).1
  have hn : (Char.ofNat b.toNat).toNat = b.toNat := by
    rw [Char.toNat_ofNat, if_pos (Or.inl (by omega))]
  simp [isCharOf, hn, hlt, hb]

theorem isEncodedChar_upperHex :
    ∀ c ∈ Lib.upperHex, isEncodedChar c = true := by
  have h : Lib.upperHex.all isEncodedChar = true := by decide
  exact List.all_eq_true.mp h

theorem mem_awsUriEncode {s : Str} {c : Char} (h : c ∈ awsUriEncode s true) :
    isEncodedChar c = true := by
  rcases Lib.mem_percentEncode h with ⟨b, hb, rfl⟩ | rfl | h
  · simp [isEncodedChar, isCharOf_ofNat unreserved_safe hb]
  · rfl
  · exact isEncodedChar_upperHex c h

theorem not_mem_awsUriEncode {s : Str} {c : Char}
    (hc : isEncodedChar c = false) :
    c ∉ awsUriEncode s true := fun h => by
  rw [mem_awsUriEncode h] at hc
  cases hc

theorem awsUriEncode_injective : Function.Injective fun s =>
    awsUriEncode s true := fun _ _ h =>
  Lib.utf8_injective (Lib.percentEncode_injective unreserved_safe h)

/-- How a canonical path begins: with an escape that was there, with a character
that stands for itself, or with one that is escaped now. -/
theorem canonicalPath_cons {c : Char} {rest canonical : Str}
    (h : canonicalPath (c :: rest) = .ok canonical) :
    (∃ high low tail hi lo next, c = '%' ∧ rest = high :: low :: tail ∧
      Lib.hexValue high = some hi ∧ Lib.hexValue low = some lo ∧
      canonicalPath tail = .ok next ∧
      canonical = '%' :: Lib.hexDigit hi :: Lib.hexDigit lo :: next) ∨
    (c ≠ '%' ∧ isCharOf isUnreservedOrSlash c = true ∧
      ∃ next, canonicalPath rest = .ok next ∧ canonical = c :: next) ∨
    (c ≠ '%' ∧ ∃ next, canonicalPath rest = .ok next ∧
      canonical = awsUriEncode [c] true ++ next) := by
  rw [canonicalPath.eq_def] at h
  simp only at h
  split at h
  · next hc =>
      split at h
      · next high low tail =>
          split at h
          · next hi lo hhi hlo =>
              cases htail : canonicalPath tail with
              | error e => simp [htail, Except.map] at h
              | ok next =>
                  simp only [htail, Except.map, Except.ok.injEq] at h
                  exact Or.inl
                    ⟨high, low, tail, hi, lo, next, hc, rfl, hhi, hlo, htail,
                      h.symm⟩
          · cases h
      · cases h
  · next hc =>
      cases hrest : canonicalPath rest with
      | error e => simp [hrest, Except.map] at h
      | ok next =>
          simp only [hrest, Except.map] at h
          split at h
          · next hsafe =>
              cases h
              exact Or.inr (Or.inl ⟨hc, hsafe, next, rfl, rfl⟩)
          · cases h
            exact Or.inr (Or.inr ⟨hc, next, rfl, rfl⟩)

theorem isPathChar_of_charOf {c : Char}
    (h : isCharOf isUnreservedOrSlash c = true) :
    isPathChar c = true := by
  simp only [isCharOf, isUnreservedOrSlash, Bool.and_eq_true, decide_eq_true_eq,
    Bool.or_eq_true,
    beq_iff_eq] at h
  obtain ⟨hlt, hun | hslash⟩ := h
  · simp [isPathChar, isEncodedChar, isCharOf, hlt, hun]
  · have hn : c.toNat = 47 := by
      have := congrArg UInt8.toNat hslash
      simp only [UInt8.toNat_ofNat', UInt8.reduceToNat] at this
      omega
    have hc : c = '/' := by
      rw [← Char.ofNat_toNat c, hn]
    simp [isPathChar, hc]

/-- A canonical path stands for the same octets as the path, in the alphabet of
encoded paths. -/
theorem canonicalPath_spec :
    ∀ {path canonical : Str}, canonicalPath path = .ok canonical →
    (∀ c ∈ canonical, isPathChar c = true) ∧
    Lib.percentDecode canonical = Lib.percentDecode path
  | [], canonical, h => by
      cases h
      exact ⟨by simp, rfl⟩
  | c :: rest, canonical, h => by
      rcases canonicalPath_cons h with ⟨high, low, tail, hi, lo, next, rfl, rfl,
        hhi, hlo, hnext, rfl⟩ |
        ⟨hc, hsafe, next, hnext, rfl⟩ | ⟨hc, next, hnext, rfl⟩
      · obtain ⟨halphabet, hdecode⟩ := canonicalPath_spec hnext
        have hi16 := (Lib.hexValue_some hhi).1
        have lo16 := (Lib.hexValue_some hlo).1
        refine ⟨?_, ?_⟩
        · intro c hc
          simp only [List.mem_cons] at hc
          rcases hc with rfl | rfl | rfl | hc
          · rfl
          · simp [isPathChar,
              isEncodedChar_upperHex _ (Lib.hexDigit_mem hi hi16)]
          · simp [isPathChar,
              isEncodedChar_upperHex _ (Lib.hexDigit_mem lo lo16)]
          · exact halphabet c hc
        · rw [Lib.percentDecode_triplet _ _ _ (Lib.hexValue_hexDigit hi hi16)
            (Lib.hexValue_hexDigit lo lo16),
              Lib.percentDecode_triplet _ _ _ hhi hlo, hdecode]
      · obtain ⟨halphabet, hdecode⟩ := canonicalPath_spec hnext
        refine ⟨List.forall_mem_cons.mpr
          ⟨isPathChar_of_charOf hsafe, halphabet⟩, ?_⟩
        rw [Lib.percentDecode_ne hc, Lib.percentDecode_ne hc, hdecode]
      · obtain ⟨halphabet, hdecode⟩ := canonicalPath_spec hnext
        refine ⟨fun x hx => ?_, ?_⟩
        · rcases List.mem_append.mp hx with hx | hx
          · simp [isPathChar, mem_awsUriEncode hx]
          · exact halphabet x hx
        · rw [awsUriEncode, if_pos rfl,
            Lib.percentDecode_encode_append unreserved_safe, hdecode,
            Lib.percentDecode_ne hc, Lib.utf8_cons, Lib.utf8_nil,
              List.append_nil]
  termination_by path => path.length

theorem canonicalUriFromEncoded_spec {path uri : Str}
    (h : canonicalUriFromEncoded path = .ok uri) :
    (∀ c ∈ uri, isPathChar c = true) ∧
    Lib.percentDecode uri = Lib.percentDecode (rooted path) := by
  unfold canonicalUriFromEncoded at h
  cases hpath : canonicalPath path with
  | error e => simp [hpath, Except.map] at h
  | ok canonical =>
      simp only [hpath, Except.map, Except.ok.injEq] at h
      subst h
      obtain ⟨halphabet, hdecode⟩ := canonicalPath_spec hpath
      unfold rooted
      split
      · exact ⟨halphabet, hdecode⟩
      · refine ⟨List.forall_mem_cons.mpr ⟨by decide, halphabet⟩, ?_⟩
        rw [Lib.percentDecode_ne (by decide), Lib.percentDecode_ne (by decide),
          hdecode]

end Encoded

/-! ## The query -/

section Query

variable {parameters parameters' : List QueryParam} {pair pair' : Str × Str}

theorem encodeParam_injective : Function.Injective encodeParam := by
  rintro ⟨name, value⟩ ⟨name', value'⟩ h
  obtain ⟨hname, hvalue⟩ := Prod.mk.inj h
  obtain rfl := awsUriEncode_injective hname
  obtain rfl := awsUriEncode_injective hvalue
  rfl

theorem encodedQuery_perm (parameters : List QueryParam) :
    (encodedQuery parameters).Perm (parameters.map encodeParam) :=
  List.perm_insertionSort encodedLe _

theorem not_mem_encoded (hpair : pair ∈ encodedQuery parameters) {c : Char}
    (hc : isEncodedChar c = false) : c ∉ pair.1 ∧ c ∉ pair.2 := by
  obtain ⟨parameter, -, rfl⟩ :=
    List.mem_map.mp ((encodedQuery_perm parameters).subset hpair)
  exact ⟨not_mem_awsUriEncode hc, not_mem_awsUriEncode hc⟩

theorem not_mem_queryField (hpair : pair ∈ encodedQuery parameters) {c : Char}
    (hc : isEncodedChar c = false) (heq : c ≠ '=') : c ∉ queryField pair := by
  obtain ⟨hname, hvalue⟩ := not_mem_encoded hpair hc
  simp [queryField, hname, hvalue, heq]

theorem queryField_inj (hpair : '=' ∉ pair.1) (hpair' : '=' ∉ pair'.1)
    (h : queryField pair = queryField pair') : pair = pair' := by
  obtain ⟨hname, hvalue⟩ := Lib.append_cons_inj hpair hpair' h
  exact Prod.ext hname hvalue

theorem not_mem_canonicalQuery {c : Char} (hc : isEncodedChar c = false)
    (heq : c ≠ '=') (hamp : c ≠ '&') : c ∉ canonicalQuery parameters := by
  intro h
  rcases Lib.mem_intercalate h with rfl | ⟨field, hfield, hmem⟩
  · exact hamp rfl
  · obtain ⟨pair, hpair, rfl⟩ := List.mem_map.mp hfield
    exact not_mem_queryField hpair hc heq hmem

theorem canonicalQuery_eq_nil (h : canonicalQuery parameters = []) :
    encodedQuery parameters = [] := by
  unfold canonicalQuery at h
  cases hq : encodedQuery parameters with
  | nil => rfl
  | cons pair rest =>
      rw [hq] at h
      cases rest with
      | nil => simp [queryField] at h
      | cons pair' rest => simp [queryField] at h

theorem canonicalQuery_inj
    (h : canonicalQuery parameters = canonicalQuery parameters') :
    parameters.Perm parameters' := by
  have henc : encodedQuery parameters = encodedQuery parameters' := by
    by_cases hnil : encodedQuery parameters = []
    · have : canonicalQuery parameters = [] := by simp [canonicalQuery, hnil]
      rw [hnil, canonicalQuery_eq_nil (h.symm.trans this)]
    · have hnil' : encodedQuery parameters' ≠ [] :=
        fun hn => hnil <| canonicalQuery_eq_nil <| by
        rw [h]
        simp [canonicalQuery, hn]
      have hamp :
          ∀ {ps : List QueryParam}, ∀ f ∈ (encodedQuery ps).map queryField,
              '&' ∉ f := by
        intro ps f hf
        obtain ⟨pair, hpair, rfl⟩ := List.mem_map.mp hf
        exact not_mem_queryField hpair (by decide) (by decide)
      refine Lib.map_inj_of_forall
        (p := fun pair => '=' ∉ pair.1) queryField_inj
        (fun _ hp => (not_mem_encoded hp (by decide)).1)
        (fun _ hp => (not_mem_encoded hp (by decide)).1) ?_
      exact Lib.intercalate_inj (by simpa using hnil)
        (by simpa using hnil') hamp hamp h
  refine (List.map_perm_map_iff encodeParam_injective).mp ?_
  exact (encodedQuery_perm parameters).symm.trans
    (henc ▸ encodedQuery_perm parameters')

end Query

/-! ## The header block -/

section Headers

variable {headers : List Header} {ordered : List (Str × List Str)}

/-- What the ordered map holds: names of token characters, values without
newlines. -/
def CleanEntry (entry : Str × List Str) : Prop :=
  entry.1 ≠ [] ∧ (∀ c ∈ entry.1, isHeaderTokenChar c = true) ∧
    ∀ value ∈ entry.2, '\n' ∉ value

theorem ascii_of_isAlphanum {c : Char} (h : c.isAlphanum = true) :
    c.toNat ≤ 127 := by
  simp only [Char.isAlphanum, Char.isAlpha, Char.isUpper, Char.isLower,
    Char.isDigit,
    Bool.or_eq_true, Bool.and_eq_true, decide_eq_true_eq,
      UInt32.le_iff_toNat_le, ge_iff_le] at h
  have hc : c.toNat = c.val.toNat := rfl
  have hZ : 'Z'.val.toNat = 90 := rfl
  have hz : 'z'.val.toNat = 122 := rfl
  have h9 : '9'.val.toNat = 57 := rfl
  omega

theorem ascii_of_isHeaderTokenChar {c : Char} (h : isHeaderTokenChar c = true) :
    c.toNat ≤ 127 := by
  rw [isHeaderTokenChar, Bool.or_eq_true, decide_eq_true_eq] at h
  rcases h with h | h
  · exact ascii_of_isAlphanum h
  · have hall : ("!#$%&'*+-.^_`|~".toList.all fun c => c.toNat ≤ 127) =
      true := by decide
    simpa using List.all_eq_true.mp hall c h

theorem isHeaderTokenChar_toLower {c : Char} (h : isHeaderTokenChar c = true) :
    isHeaderTokenChar c.toLower = true :=
  Lib.forall_ascii (P := fun c => isHeaderTokenChar c = true →
    isHeaderTokenChar c.toLower = true)
    (by decide +kernel) (ascii_of_isHeaderTokenChar h) h

theorem normalizeLoop_mem :
    ∀ {value normalized : Str} {pendingSpace : Bool} {c : Char},
    c ∈ normalizeLoop value normalized pendingSpace → c ∈ value ∨
    c ∈ normalized ∨ c = ' '
  | [], normalized, _, c, h => Or.inr (Or.inl h)
  | x :: value, normalized, pendingSpace, c, h => by
      rw [normalizeLoop] at h
      split at h
      · rcases normalizeLoop_mem h with h | h
        · exact Or.inl (List.mem_cons_of_mem _ h)
        · exact Or.inr h
      · rcases normalizeLoop_mem h with h | h | h
        · exact Or.inl (List.mem_cons_of_mem _ h)
        · rcases List.mem_append.mp h with h | h
          · exact Or.inr (Or.inl h)
          · cases pendingSpace with
            | true =>
                simp only [if_true, List.mem_cons, List.not_mem_nil, or_false]
                  at h
                rcases h with rfl | rfl
                · exact Or.inr (Or.inr rfl)
                · exact Or.inl (List.mem_cons_self ..)
            | false =>
                simp only [Bool.false_eq_true, if_false, List.mem_singleton]
                  at h
                subst h
                exact Or.inl (List.mem_cons_self ..)
        · exact Or.inr (Or.inr h)

theorem normalizeHeaderValue_clean {value normalized : Str}
    (h : normalizeHeaderValue value = .ok normalized) : '\n' ∉ normalized := by
  unfold normalizeHeaderValue at h
  split at h
  · cases h
  · next hany =>
      cases h
      intro hmem
      rcases normalizeLoop_mem hmem with h | h | h
      · exact hany (List.any_eq_true.mpr ⟨'\n', h, by decide⟩)
      · cases h
      · cases h

theorem pushHeader_clean {name value : Str} (hname : name ≠ [])
    (htoken : ∀ c ∈ name, isHeaderTokenChar c = true) (hvalue : '\n' ∉ value) :
    ∀ {ordered : List (Str × List Str)}, (∀ entry ∈ ordered, CleanEntry entry) →
      ∀ entry ∈ pushHeader name value ordered, CleanEntry entry
  | [], _, entry, hentry => by
      obtain rfl := List.mem_singleton.mp hentry
      exact ⟨hname, htoken, by simpa using hvalue⟩
  | (n, values) :: rest, hclean, entry, hentry => by
      obtain ⟨hhead, hrest⟩ := List.forall_mem_cons.mp hclean
      unfold pushHeader at hentry
      split at hentry
      · rcases List.mem_cons.mp hentry with rfl | hentry
        · refine ⟨hhead.1, hhead.2.1, fun v hv => ?_⟩
          rcases List.mem_append.mp hv with hv | hv
          · exact hhead.2.2 v hv
          · rw [List.mem_singleton.mp hv]
            exact hvalue
        · exact hrest entry hentry
      · split at hentry
        · rcases List.mem_cons.mp hentry with rfl | hentry
          · exact ⟨hname, htoken, by simpa using hvalue⟩
          · exact hclean entry hentry
        · rcases List.mem_cons.mp hentry with rfl | hentry
          · exact hhead
          · exact pushHeader_clean hname htoken hvalue hrest entry hentry

theorem orderHeaders_clean :
    ∀ {headers : List Header} {ordered ordered' : List (Str × List Str)},
    orderHeaders headers ordered = .ok ordered' →
    (∀ entry ∈ ordered, CleanEntry entry) →
      ∀ entry ∈ ordered', CleanEntry entry
  | [], ordered, ordered', h, hclean => by
      cases h
      exact hclean
  | header :: headers, ordered, ordered', h, hclean => by
      unfold orderHeaders at h
      split at h
      · cases h
      · next hvalid =>
          split at h
          · cases h
          · next value hvalue =>
              simp only [validHeaderName, Bool.not_eq_true', Bool.not_eq_false,
                Bool.and_eq_true,
                List.all_eq_true, List.isEmpty_eq_false_iff] at hvalid
              refine orderHeaders_clean h (pushHeader_clean ?_ ?_
                (normalizeHeaderValue_clean hvalue) hclean)
              · simpa [toAsciiLowercase] using hvalid.1
              · intro c hc
                obtain ⟨x, hx, rfl⟩ := List.mem_map.mp hc
                exact isHeaderTokenChar_toLower (hvalid.2 x hx)

theorem pushHeader_names {name value n : Str} :
    ∀ {ordered : List (Str × List Str)},
    n ∈ (pushHeader name value ordered).map Prod.fst ↔ n = name ∨
    n ∈ ordered.map Prod.fst
  | [] => by simp [pushHeader]
  | (m, values) :: rest => by
      unfold pushHeader
      split
      · next hm =>
          simp only [hm, List.map_cons, List.mem_cons]
          tauto
      · split
        · simp only [List.map_cons, List.mem_cons]
        · simp only [List.map_cons, List.mem_cons,
            @pushHeader_names name value n rest]
          tauto

/-- The names of the ordered map are the lowercase names of the headers. -/
theorem orderHeaders_names :
    ∀ {headers : List Header} {ordered ordered' : List (Str × List Str)},
    orderHeaders headers ordered = .ok ordered' →
    ∀ {name : Str}, name ∈ ordered'.map Prod.fst ↔
      name ∈ ordered.map Prod.fst ∨
      ∃ header ∈ headers, toAsciiLowercase header.name = name
  | [], ordered, ordered', h, name => by
      cases h
      simp
  | header :: headers, ordered, ordered', h, name => by
      unfold orderHeaders at h
      split at h
      · cases h
      · split at h
        · cases h
        · rw [orderHeaders_names h, pushHeader_names]
          simp only [List.mem_cons, exists_eq_or_imp, eq_comm (a := name)]
          tauto

theorem canonicalHeaders_ok {canonical : CanonicalHeaders}
    (h : canonicalHeaders headers = .ok canonical) :
    ∃ ordered, orderHeaders headers [] = .ok ordered ∧ ordered ≠ [] ∧
      (∀ entry ∈ ordered, CleanEntry entry) ∧
      canonical = renderHeaders ordered := by
  unfold canonicalHeaders at h
  split at h
  · cases h
  · next ordered hordered =>
      split at h
      · cases h
      · next hne =>
          split at h
          · cases h
          · split at h
            · cases h
            · cases h
              exact ⟨ordered, hordered, by simpa using hne,
                orderHeaders_clean hordered (by simp), rfl⟩

theorem headerLine_clean {entry : Str × List Str} (h : CleanEntry entry) :
    headerLine (entry.1, [','].intercalate entry.2) ≠ [] ∧
      '\n' ∉ headerLine (entry.1, [','].intercalate entry.2) := by
  refine ⟨by simp [headerLine], fun hmem => ?_⟩
  simp only [headerLine, List.mem_append, List.mem_cons] at hmem
  rcases hmem with hmem | hmem | hmem
  · exact Bool.false_ne_true (h.2.1 _ hmem)
  · cases hmem
  · rcases Lib.mem_intercalate hmem with hmem | ⟨value, hvalue, hmem⟩
    · cases hmem
    · exact h.2.2 value hvalue hmem

theorem headerLine_inj {entry entry' : Str × Str} (h : ':' ∉ entry.1)
    (h' : ':' ∉ entry'.1) (heq : headerLine entry = headerLine entry') :
    entry = entry' := by
  obtain ⟨hname, hvalue⟩ := Lib.append_cons_inj h h' heq
  exact Prod.ext hname hvalue

end Headers

end S3Wire
