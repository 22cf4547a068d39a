/-
# `S3Wire.Http` — header names, header values and header maps

What the client uses of the `http` crate's header types, by their documented
behaviour.  A name is a non-empty lowercase token; a value is a string of octets
without controls (the tab excepted); a map lists its names in the order in which
they first arrived, each with its values in the order in which they were
appended.  The three structures carry these facts, so a header map of the model
is always one the crate could have built.
-/
import S3Wire.Error

namespace S3Wire

/-! ## Names -/

/-- The token characters of HTTP, uppercase letters excepted. -/
def isHeaderNameChar (c : Char) : Bool :=
  c.isLower || c.isDigit || c ∈ "!#$%&'*+-.^_`|~".toList

/-- `HeaderName`: lowercase, and a token of HTTP. -/
structure HeaderName where
  text : Str
  nonempty : text ≠ []
  token : text.all isHeaderNameChar = true
  deriving DecidableEq

/-- `HeaderName::from_bytes`: uppercase letters are folded, names of more than
65535 octets are refused. -/
def HeaderName.fromStr (s : Str) : Option HeaderName :=
  let text := s.map Char.toLower
  if h : text ≠ [] ∧ text.all isHeaderNameChar = true then
    if s.length ≤ 65535 then some ⟨text, h.1, h.2⟩ else none
  else none

theorem HeaderName.ext_text {a b : HeaderName} (h : a.text = b.text) :
    a = b := by
  cases a
  cases b
  cases h
  rfl

/-! ## Values -/

/-- The octets a header value may hold. -/
def isHeaderValueByte (b : UInt8) : Bool := (32 ≤ b && b != 127) || b == 9

/-- Octets that `HeaderValue::to_str` reads as text. -/
def isVisibleByte (b : UInt8) : Bool := (32 ≤ b && b < 127) || b == 9

/-- `HeaderValue`: no control byte but the tab. -/
structure HeaderValue where
  bytes : Bytes
  valid : bytes.all isHeaderValueByte = true
  deriving DecidableEq

/-- The text of a string of ASCII octets. -/
def asciiText (bytes : Bytes) : Str := bytes.map fun b => Char.ofNat b.toNat

namespace HeaderValue

/-- `HeaderValue::from_str` keeps the UTF-8 octets of the text. -/
def fromStr (s : Str) : Option HeaderValue :=
  if h : (Lib.utf8 s).all isHeaderValueByte = true then some ⟨Lib.utf8 s, h⟩
  else none

/-- `HeaderValue::to_str` refuses octets outside visible ASCII. -/
def toStr (v : HeaderValue) : Option Str :=
  if v.bytes.all isVisibleByte then some (asciiText v.bytes) else none

end HeaderValue

theorem utf8_ascii : ∀ {s : Str}, (∀ c ∈ s, c.toNat ≤ 127) →
    Lib.utf8 s = s.map fun c => UInt8.ofNat c.toNat
  | [], _ => rfl
  | c :: s, h => by
      rw [Lib.utf8_cons, Lib.utf8EncodeChar_ascii (h c (by simp)),
        utf8_ascii (s := s) fun c hc => h c (by simp [hc])]
      rfl

theorem asciiText_utf8 {s : Str} (h : ∀ c ∈ s, c.toNat ≤ 127) :
    asciiText (Lib.utf8 s) = s := by
  rw [utf8_ascii h, asciiText, List.map_map]
  conv_rhs => rw [← List.map_id s]
  refine List.map_congr_left fun c hc => ?_
  have hlt : c.toNat % 2 ^ 8 = c.toNat :=
    Nat.mod_eq_of_lt (by have := h c hc; omega)
  simp only [Function.comp, UInt8.toNat_ofNat', hlt, Char.ofNat_toNat, id]

theorem HeaderValue.fromStr_bytes {s : Str} {v : HeaderValue}
    (h : HeaderValue.fromStr s = some v) :
    v.bytes = Lib.utf8 s := by
  unfold HeaderValue.fromStr at h
  split at h
  · cases h
    rfl
  · cases h

/-! ## Maps -/

/-- Put one value under a name, in place of what was there. -/
def insertEntry (name : HeaderName) (value : HeaderValue) :
    List (HeaderName × List HeaderValue) → List (HeaderName × List HeaderValue)
  | [] => [(name, [value])]
  | (n, vs) :: rest =>
      if n = name then (n, [value]) :: rest
      else (n, vs) :: insertEntry name value rest

theorem mem_insertEntry_names {name : HeaderName} {value : HeaderValue}
    {n : HeaderName} :
    ∀ {es : List (HeaderName × List HeaderValue)},
      n ∈ (insertEntry name value es).map Prod.fst ↔ n = name ∨
      n ∈ es.map Prod.fst
  | [] => by simp [insertEntry]
  | (m, vs) :: es => by
      by_cases hm : m = name
      · simp only [insertEntry, hm, if_true, List.map_cons, List.mem_cons]
        tauto
      · simp only [insertEntry, hm, if_false, List.map_cons, List.mem_cons,
          @mem_insertEntry_names name value n es]
        tauto

theorem nodup_insertEntry {name : HeaderName} {value : HeaderValue} :
    ∀ {es : List (HeaderName × List HeaderValue)}, (es.map Prod.fst).Nodup →
      ((insertEntry name value es).map Prod.fst).Nodup
  | [], _ => by simp [insertEntry]
  | (m, vs) :: es, h => by
      obtain ⟨hm, hes⟩ := List.nodup_cons.mp h
      by_cases hn : m = name
      · simpa [insertEntry, hn] using h
      · simp only [insertEntry, hn, if_false, List.map_cons]
        refine List.nodup_cons.mpr ⟨?_, nodup_insertEntry hes⟩
        rw [mem_insertEntry_names]
        rintro (rfl | h')
        · exact hn rfl
        · exact hm h'

theorem mem_insertEntry {name : HeaderName} {value : HeaderValue}
    {e : HeaderName × List HeaderValue} :
    ∀ {es : List (HeaderName × List HeaderValue)},
      e ∈ insertEntry name value es →
      e = (name, [value]) ∨ e ∈ es
  | [], h => by simpa [insertEntry] using h
  | (m, vs) :: es, h => by
      by_cases hn : m = name
      · simp only [insertEntry, hn, if_true, List.mem_cons] at h
        rcases h with h | h
        · exact Or.inl h
        · exact Or.inr (List.mem_cons_of_mem _ h)
      · simp only [insertEntry, hn, if_false, List.mem_cons] at h
        rcases h with h | h
        · exact Or.inr (List.mem_cons.mpr (Or.inl h))
        · rcases mem_insertEntry h with h | h
          · exact Or.inl h
          · exact Or.inr (List.mem_cons_of_mem _ h)

/-- `http::HeaderMap`. -/
structure HeaderMap where
  entries : List (HeaderName × List HeaderValue)
  nodup : (entries.map Prod.fst).Nodup
  filled : ∀ e ∈ entries, e.2 ≠ []

namespace HeaderMap

def new : HeaderMap := ⟨[], List.nodup_nil, by simp⟩

/-- All values under a name, first one first.  Lookups are by lowercase text. -/
def getAll (m : HeaderMap) (name : Str) : List HeaderValue :=
  ((m.entries.find? fun e => e.1.text == name).map Prod.snd).getD []

/-- `HeaderMap::get` returns the first value. -/
def get (m : HeaderMap) (name : Str) : Option HeaderValue :=
  (m.getAll name).head?

def containsKey (m : HeaderMap) (name : Str) : Bool :=
  m.entries.any fun e => e.1.text == name

/-- `HeaderMap::insert` replaces every value of the name. -/
def insert (m : HeaderMap) (name : HeaderName) (value : HeaderValue) :
    HeaderMap where
  entries := insertEntry name value m.entries
  nodup := nodup_insertEntry m.nodup
  filled := by
    intro e he
    rcases mem_insertEntry he with rfl | he
    · simp
    · exact m.filled e he

/-- `HeaderMap::iter`: every value with its name, the values of one name in a
row. -/
def iter (m : HeaderMap) : List (HeaderName × HeaderValue) :=
  m.entries.flatMap fun e => e.2.map fun v => (e.1, v)

theorem getAll_insert (m : HeaderMap) (name : HeaderName) (value : HeaderValue)
    (k : Str) :
    (m.insert name value).getAll k = if k = name.text then
      [value] else m.getAll k := by
  obtain ⟨entries, nodup, filled⟩ := m
  unfold insert getAll
  dsimp only
  clear nodup filled
  induction entries with
  | nil =>
      by_cases hk : k = name.text
      · simp [insertEntry, hk]
      · simp [insertEntry, hk, Ne.symm hk]
  | cons e es ih =>
      obtain ⟨n, vs⟩ := e
      by_cases hn : n = name
      · subst hn
        by_cases hk : k = n.text
        · simp [insertEntry, hk]
        · simp [insertEntry, hk, Ne.symm hk]
      · simp only [insertEntry, hn, if_false, List.find?_cons]
        by_cases hk : n.text = k
        · have hne : ¬ k = name.text :=
            fun h => hn (HeaderName.ext_text (hk.trans h))
          simp [hk, hne]
        · have hbeq : (n.text == k) = false := by simpa using hk
          simpa only [hbeq] using ih

theorem get_insert (m : HeaderMap) (name : HeaderName) (value : HeaderValue)
    (k : Str) :
    (m.insert name value).get k = if k = name.text then
      some value else m.get k := by
  unfold get
  rw [getAll_insert]
  split <;> rfl

theorem containsKey_insert (m : HeaderMap) (name : HeaderName)
    (value : HeaderValue) (k : Str) :
    (m.insert name value).containsKey k =
      (k == name.text || m.containsKey k) := by
  obtain ⟨entries, nodup, filled⟩ := m
  show (insertEntry name value entries).any (fun e => e.1.text == k) =
    (k == name.text || entries.any fun e => e.1.text == k)
  clear nodup filled
  induction entries with
  | nil =>
      show ((name.text == k) || false) = ((k == name.text) || false)
      rw [Bool.beq_comm]
  | cons e es ih =>
      obtain ⟨n, vs⟩ := e
      by_cases hn : n = name
      · subst hn
        rw [insertEntry, if_pos rfl, List.any_cons, List.any_cons,
          Bool.beq_comm (a := k), ← Bool.or_assoc,
          Bool.or_self]
      · rw [insertEntry, if_neg hn, List.any_cons, List.any_cons, ih,
          ← Bool.or_assoc, ← Bool.or_assoc,
          Bool.or_comm (n.text == k)]

@[simp] theorem get_new (k : Str) : new.get k = none := rfl

end HeaderMap

end S3Wire
