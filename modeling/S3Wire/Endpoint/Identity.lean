/-
# `S3Wire.Endpoint.Identity` — a URL names one object

`Endpoint::object_url` of `src/endpoint/mod.rs`.  A URL is the endpoint with a
bucket and perhaps a key put into it, encoded and otherwise untouched: what
comes after the base path is `objectSuffix`, and one decoding of it gives the
bytes of the bucket and of the key (`decode_objectSuffix`).  Nothing of the key
is taken for a segment, a query or a fragment, so of two different pairs neither
has the URL of the other.

The authority is another matter.  `object_url` does not put the bucket in front
of the endpoint's authority: it writes the host and the port that `port_u16`
reads, and `Endpoint::new` does not ask that there is one.  A port from 65536 on
is accepted and then left out, so that the URL of a bucket in a host name aims
at the default port (`objectUrl_moved`); `objectUrl_names_one_iff` says exactly
which endpoints keep theirs.
-/
import S3Wire.Endpoint

namespace S3Wire

/-! ## The parts of a URL -/

/-- The base path as it stands in a URL: a bucket alone in a host name takes the
final slash away, unless there is nothing else. -/
def Endpoint.keptBase (e : Endpoint) (objectKey : Option Str)
    (style : AddressingStyle) : Str :=
  if style = .virtualHosted ∧ objectKey = none ∧ e.basePath ≠ ['/'] then
    e.basePath.dropLast
  else e.basePath

/-- What follows the base path. -/
def objectSuffix (bucket : Str) (objectKey : Option Str) : AddressingStyle → Str
  | .path =>
      encodePathComponent (Lib.utf8 bucket) ++
        match objectKey with
        | some key => '/' :: encodeObjectKey (Lib.utf8 key)
        | none => []
  | .virtualHosted =>
      match objectKey with
      | some key => encodeObjectKey (Lib.utf8 key)
      | none => []

/-- The bytes a pair stands for. -/
def objectBytes (bucket : Str) (objectKey : Option Str) : AddressingStyle →
    Bytes
  | .path =>
      Lib.utf8 bucket ++
        match objectKey with
        | some key => Lib.utf8 ['/'] ++ Lib.utf8 key
        | none => []
  | .virtualHosted =>
      match objectKey with
      | some key => Lib.utf8 key
      | none => []

/-- The authority a URL is to have: the endpoint's own, after the bucket when
that stands in the host name. -/
def Endpoint.namedAuthority (e : Endpoint) (bucket : Str) : AddressingStyle →
    Str
  | .path => e.url.authority
  | .virtualHosted => bucket ++ '.' :: e.url.authority

/-- A host alone, or a host with a port below 65536 in its decimal form. -/
def Authority.Canonical (authority : Str) : Prop :=
  authority = host authority ∨
    ∃ port < 65536, authority = host authority ++ ':' :: decimal port

/-- A URL that is the endpoint with this pair put into it. -/
structure Names (e : Endpoint) (bucket : Str) (objectKey : Option Str)
    (style : AddressingStyle) (url : EndpointUrl) : Prop where
  serialized : url.serialized = url.scheme ++ "://".toList ++ url.authority ++
    url.pathAndQuery
  scheme : url.scheme = e.url.scheme
  authority : url.authority = e.namedAuthority bucket style
  plain : '?' ∉ url.pathAndQuery ∧ '#' ∉ url.pathAndQuery
  path : ∃ rest, url.pathAndQuery = e.keptBase objectKey style ++ rest ∧
    Lib.percentDecode rest = some (objectBytes bucket objectKey style)

section Names

variable {grammar : UriGrammar} {e : Endpoint} {bucket bucket' : Str}
  {objectKey objectKey' : Option Str}
  {style : AddressingStyle} {url : EndpointUrl}

theorem slash_not_mem_bucket (bucket : Str) :
    '/' ∉ encodePathComponent (Lib.utf8 bucket) :=
  @not_mem_awsUriEncode bucket _ (by decide)

theorem encodePathComponent_ne_nil (h : bucket ≠ []) :
    encodePathComponent (Lib.utf8 bucket) ≠ [] := by
  intro hnil
  have hempty :
    encodePathComponent (Lib.utf8 bucket) = encodePathComponent (Lib.utf8 []) :=
      hnil
  exact h (Lib.utf8_injective
    (Lib.percentEncode_injective unreserved_safe hempty))

theorem Endpoint.objectPath_eq (hbase : e.basePath.getLast? = some '/')
    (hbucket : bucket ≠ []) :
    e.objectPath bucket objectKey style = e.keptBase objectKey style ++
      objectSuffix bucket objectKey style := by
  have hne := encodePathComponent_ne_nil hbucket
  have hopen : (e.basePath ++ encodePathComponent (Lib.utf8 bucket)).getLast? ≠
      some '/' := by
    rw [List.getLast?_append_of_ne_nil _ hne]
    exact fun hlast => slash_not_mem_bucket bucket (List.mem_of_getLast? hlast)
  obtain ⟨front, hfront⟩ := List.getLast?_eq_some_iff.mp hbase
  have hlong : 1 < e.basePath.length ↔ e.basePath ≠ ['/'] := by
    rw [hfront]
    cases front with
    | nil => simp
    | cons c front => simp
  unfold objectPath keptBase objectSuffix
  cases style with
  | path =>
      cases objectKey with
      | none => simp
      | some key =>
          simp only [true_and]
          rw [if_pos hopen]
          simp
  | virtualHosted =>
      cases objectKey with
      | none => simp [hlong]
      | some key => simp

theorem decode_objectSuffix :
    Lib.percentDecode (objectSuffix bucket objectKey style) =
      some (objectBytes bucket objectKey style) := by
  have hkey : ∀ key : Str, Lib.percentDecode (encodeObjectKey (Lib.utf8 key)) =
      some (Lib.utf8 key) :=
    fun key => Lib.percentDecode_encode unreservedOrSlash_safe (Lib.utf8 key)
  unfold objectSuffix objectBytes
  cases style with
  | path =>
      cases objectKey with
      | none =>
          simp only [List.append_nil]
          exact Lib.percentDecode_encode unreserved_safe (Lib.utf8 bucket)
      | some key =>
          simp only
          rw [encodePathComponent,
            Lib.percentDecode_encode_append unreserved_safe,
            Lib.percentDecode_ne (by decide), hkey, Lib.utf8_cons, Lib.utf8_nil,
              List.append_nil]
          rfl
  | virtualHosted =>
      cases objectKey with
      | none => rfl
      | some key => exact hkey key

/-- What is written of a port that was read. -/
def portSuffix : Option Nat → Str
  | none => []
  | some port => ':' :: decimal port

/-- The authority that `object_url` writes. -/
def Endpoint.writtenAuthority (e : Endpoint) (bucket : Str) : AddressingStyle →
    Str
  | .path => e.url.authority
  | .virtualHosted =>
      bucket ++
        '.' :: (Authority.host e.url.authority ++
          portSuffix (Authority.port e.url.authority))

theorem Endpoint.objectAuthority_eq {authority : Str}
    (h : e.objectAuthority grammar bucket style = .ok authority) :
    authority = e.writtenAuthority bucket style := by
  cases style with
  | path =>
      cases h
      rfl
  | virtualHosted =>
      unfold objectAuthority at h
      simp only at h
      split at h
      · cases h
      split at h
      · cases h
      split at h
      · cases h
      split at h
      · next hport =>
          cases h
          simp [writtenAuthority, portSuffix, hport]
      · next port hport =>
          cases h
          simp [writtenAuthority, portSuffix, hport]

/-! ## The port that is read -/

namespace Authority

variable {authority : Str} {n : Nat}

theorem parseU16_eq_some {s : Str} (h : parseU16 s = some n) :
    s ≠ [] ∧ (∀ c ∈ s, c = '+' ∨ c.isDigit = true) ∧ n < 65536 := by
  obtain ⟨digits, hdigits⟩ : ∃ digits, digits = if s.head? = some '+' then
      s.tail else s :=
    ⟨_, rfl⟩
  unfold parseU16 at h
  simp only [← hdigits] at h
  split at h
  · cases h
  next hvalid =>
  rw [Bool.or_eq_true, not_or, Bool.not_eq_true, Bool.not_eq_true',
    Bool.not_eq_false,
    List.all_eq_true] at hvalid
  split at h
  swap
  · cases h
  next hlt =>
  cases h
  obtain ⟨hsome, hall⟩ := hvalid
  have hne : s ≠ [] := by
    rintro rfl
    rw [hdigits] at hsome
    cases hsome
  refine ⟨hne, fun c hc => ?_, hlt⟩
  split at hdigits
  · next hsign =>
      rw [← List.cons_head?_tail hsign] at hc
      rcases List.mem_cons.mp hc with rfl | hc
      · exact Or.inl rfl
      · exact Or.inr (hall c (hdigits ▸ hc))
  · exact Or.inr (hall c (hdigits ▸ hc))

theorem parseU16_decimal (h : n < 65536) : parseU16 (decimal n) = some n := by
  have hsign : (decimal n).head? ≠ some '+' := fun hhead =>
    absurd (isDigit_decimal (List.mem_of_head? hhead)) (by decide)
  have hdigits : (decimal n).all Char.isDigit = true :=
    List.all_eq_true.mpr fun _ hc => isDigit_decimal hc
  have hsome : (decimal n).isEmpty = false :=
    List.isEmpty_eq_false_iff.mpr Nat.toDigits_ne_nil
  have hvalue :
      (decimal n).foldl (fun n c => 10 * n + (c.toNat - '0'.toNat)) 0 = n :=
    Nat.ofDigitChars_ten_toDigits
  simp only [parseU16, if_neg hsign, hsome, hdigits, hvalue, Bool.not_true,
    Bool.or_self,
    Bool.false_eq_true, if_false, if_pos h]

theorem port_append {front digits : Str} (h : ':' ∉ digits) :
    port (front ++ ':' :: digits) = parseU16 digits := by
  rw [port, if_pos (List.mem_append_right _ (List.mem_cons_self ..)),
    List.splitOn_append_cons_self,
    List.splitOn_eq_singleton h, List.getLastD_concat]

theorem port_eq_some (h : port authority = some n) :
    ∃ front digits, authority = front ++ ':' :: digits ∧
    parseU16 digits = some n := by
  have hcolon : ':' ∈ authority := by
    by_contra hnone
    rw [port, if_neg hnone] at h
    cases h
  obtain ⟨back, front, hreverse, hlast⟩ :=
    List.eq_append_cons_of_mem (List.mem_reverse.mpr hcolon)
  have hsplit : authority = front.reverse ++ ':' :: back.reverse := by
    rw [← List.reverse_reverse authority, hreverse, List.reverse_append,
      List.reverse_cons,
      List.append_assoc, List.singleton_append]
  rw [hsplit, port_append (fun hmem => hlast (List.mem_reverse.mp hmem))] at h
  exact ⟨front.reverse, back.reverse, hsplit, h⟩

/-- A host in brackets ends with one, and any other holds no colon: neither is
read as ending with a port. -/
theorem port_of_host (huser : '@' ∉ authority)
    (h : authority = host authority) :
    port authority = none := by
  cases hport : port authority with
  | none => rfl
  | some n =>
      exfalso
      obtain ⟨front, digits, hsplit, hread⟩ := port_eq_some hport
      obtain ⟨hne, hdigits, -⟩ := parseU16_eq_some hread
      unfold host at h
      rw [hostPort_eq huser] at h
      simp only at h
      split at h
      · have hlast : authority.getLast? = some ']' := by
          rw [h]
          exact List.getLast?_concat
        have hmem : ']' ∈ digits := by
          rw [hsplit, List.getLast?_append_cons,
            List.getLast?_cons_of_ne_nil hne] at hlast
          exact List.mem_of_getLast? hlast
        rcases hdigits _ hmem with hsign | hdigit
        · exact absurd hsign (by decide)
        · exact absurd hdigit (by decide)
      · have hcolon : ':' ∈ authority := by
          rw [hsplit]
          exact List.mem_append_right _ (List.mem_cons_self ..)
        rw [h] at hcolon
        exact Lib.not_mem_beforeFirst _ _ hcolon

/-- A canonical authority is what is written of its host and of the port that is
read. -/
theorem canonical_iff (huser : '@' ∉ authority) :
    Canonical authority ↔
    authority = host authority ++ portSuffix (port authority) := by
  constructor
  · rintro (h | ⟨n, hn, h⟩)
    · rw [port_of_host huser h, portSuffix, List.append_nil]
      exact h
    · have hcolon : ':' ∉ decimal n :=
        fun hc => absurd (isDigit_decimal hc) (by decide)
      have hport : port authority = some n := by
        rw [h, port_append hcolon, parseU16_decimal hn]
      rw [hport]
      exact h
  · intro h
    cases hport : port authority with
    | none =>
        rw [hport, portSuffix, List.append_nil] at h
        exact Or.inl h
    | some n =>
        rw [hport] at h
        obtain ⟨_, _, -, hread⟩ := port_eq_some hport
        exact Or.inr ⟨n, (parseU16_eq_some hread).2.2, h⟩

end Authority

theorem Endpoint.writtenAuthority_iff (huser : '@' ∉ e.url.authority) :
    e.writtenAuthority bucket style = e.namedAuthority bucket style ↔
      style = .path ∨ Authority.Canonical e.url.authority := by
  cases style with
  | path => exact ⟨fun _ => Or.inl rfl, fun _ => rfl⟩
  | virtualHosted =>
      rw [Authority.canonical_iff huser, writtenAuthority, namedAuthority]
      simp only [List.append_cancel_left_eq, List.cons.injEq, true_and,
        reduceCtorEq, false_or]
      exact eq_comm

/-! ## The URLs -/

theorem bucket_ne_nil
    (h : e.objectUrl grammar bucket objectKey style = .ok url) :
    bucket ≠ [] := by
  rintro rfl
  cases h

theorem Endpoint.objectUrl_authority
    (h : e.objectUrl grammar bucket objectKey style = .ok url) :
    url.authority = e.writtenAuthority bucket style := by
  obtain ⟨authority, hauthority, hparts⟩ := Endpoint.objectUrl_eq h
  obtain ⟨rfl, -⟩ := EndpointUrl.fromParts_eq hparts
  exact objectAuthority_eq hauthority

theorem Endpoint.objectUrl_path {input : Str}
    (he : Endpoint.new grammar input = .ok e)
    (h : e.objectUrl grammar bucket objectKey style = .ok url) :
    url.pathAndQuery = e.keptBase objectKey style ++
      objectSuffix bucket objectKey style := by
  obtain ⟨_, -, hparts⟩ := Endpoint.objectUrl_eq h
  obtain ⟨hurl, -⟩ := EndpointUrl.fromParts_eq hparts
  rw [hurl]
  exact Endpoint.objectPath_eq (Endpoint.new_closed he) (bucket_ne_nil h)

theorem Endpoint.objectUrl_names_iff {input : Str}
    (he : Endpoint.new grammar input = .ok e)
    (h : e.objectUrl grammar bucket objectKey style = .ok url) :
    Names e bucket objectKey style url ↔ style = .path ∨
    Authority.Canonical e.url.authority := by
  obtain ⟨htarget, hplain⟩ :=
    Endpoint.objectUrl_target (Endpoint.new_valid he) h
  obtain ⟨_, -, hparts⟩ := Endpoint.objectUrl_eq h
  obtain ⟨hurl, -⟩ := EndpointUrl.fromParts_eq hparts
  have hwritten := Endpoint.objectUrl_authority h
  have hwritten_iff :
      e.writtenAuthority bucket style = e.namedAuthority bucket style ↔
        style = .path ∨ Authority.Canonical e.url.authority :=
    writtenAuthority_iff (Endpoint.new_valid he).user
  rw [← hwritten_iff]
  constructor
  · intro hnames
    rw [← hwritten, hnames.authority]
  · intro hsame
    refine ⟨htarget.serialized, ?_, hwritten.trans hsame,
      ⟨hplain, htarget.fragment⟩, ?_⟩
    · rw [hurl]
    · exact ⟨_, Endpoint.objectUrl_path he h, decode_objectSuffix⟩

theorem encodeObjectKey_inj {key key' : Str}
    (h : encodeObjectKey (Lib.utf8 key) = encodeObjectKey (Lib.utf8 key')) :
    key = key' :=
  Lib.utf8_injective (Lib.percentEncode_injective unreservedOrSlash_safe h)

theorem encodePathComponent_inj
    (h : encodePathComponent (Lib.utf8 bucket) =
      encodePathComponent (Lib.utf8 bucket')) : bucket = bucket' :=
  Lib.utf8_injective (Lib.percentEncode_injective unreserved_safe h)

theorem objectSuffix_inj
    (h : objectSuffix bucket objectKey .path =
      objectSuffix bucket' objectKey' .path) :
    bucket = bucket' ∧ objectKey = objectKey' := by
  have hslash := slash_not_mem_bucket
  unfold objectSuffix at h
  cases objectKey with
  | none =>
      cases objectKey' with
      | none =>
          simp only [List.append_nil] at h
          exact ⟨encodePathComponent_inj h, rfl⟩
      | some key' =>
          simp only [List.append_nil] at h
          exact absurd (h ▸ List.mem_append_right _ (List.mem_cons_self ..))
            (hslash bucket)
  | some key =>
      cases objectKey' with
      | none =>
          simp only [List.append_nil] at h
          exact absurd (h ▸ List.mem_append_right _ (List.mem_cons_self ..))
            (hslash bucket')
      | some key' =>
          obtain ⟨hbucket, hkey⟩ :=
            Lib.append_cons_inj (hslash bucket) (hslash bucket') h
          exact ⟨encodePathComponent_inj hbucket,
            congrArg some (encodeObjectKey_inj hkey)⟩

theorem length_keptBase_le (e : Endpoint) (objectKey : Option Str)
    (style : AddressingStyle) :
    (e.keptBase objectKey style).length ≤ e.basePath.length := by
  unfold Endpoint.keptBase
  split
  · rw [List.length_dropLast]
    exact Nat.sub_le _ _
  · exact le_refl _

/-- In a host name the key is all that follows the base path, and a key is not
empty. -/
theorem hostedPath_inj (hkey : objectKey ≠ some [])
    (hkey' : objectKey' ≠ some [])
    (h : e.keptBase objectKey .virtualHosted ++
      objectSuffix bucket objectKey .virtualHosted =
      e.keptBase objectKey' .virtualHosted ++
        objectSuffix bucket' objectKey' .virtualHosted) :
    objectKey = objectKey' := by
  have hlonger : ∀ {key : Str}, some key ≠ some [] →
      e.basePath.length <
          (e.basePath ++ encodeObjectKey (Lib.utf8 key)).length := by
    intro key hne
    rw [List.length_append]
    have hpos : 0 < (encodeObjectKey (Lib.utf8 key)).length := by
      refine List.length_pos_of_ne_nil fun hnil => hne (congrArg some ?_)
      exact @encodeObjectKey_inj key [] hnil
    omega
  cases objectKey with
  | none =>
      cases objectKey' with
      | none => rfl
      | some key' =>
          have hle := length_keptBase_le e none .virtualHosted
          have hlt := hlonger hkey'
          have hlen := congrArg List.length h
          simp only [objectSuffix, List.append_nil] at hlen
          simp only [Endpoint.keptBase, reduceCtorEq, false_and, and_false,
            if_false] at hlen hle
          omega
  | some key =>
      cases objectKey' with
      | none =>
          have hle := length_keptBase_le e none .virtualHosted
          have hlt := hlonger hkey
          have hlen := congrArg List.length h
          simp only [objectSuffix, List.append_nil] at hlen
          simp only [Endpoint.keptBase, reduceCtorEq, false_and, and_false,
            if_false] at hlen hle
          omega
      | some key' =>
          simp only [Endpoint.keptBase, reduceCtorEq, false_and, and_false,
            if_false, objectSuffix,
            List.append_cancel_left_eq] at h
          exact congrArg some (encodeObjectKey_inj h)

/-- One URL, one pair: its path gives the pair back, and in a host name its
authority gives the bucket. -/
theorem Endpoint.objectUrl_inj {input : Str} {url' : EndpointUrl}
    (he : Endpoint.new grammar input = .ok e) (hkey : objectKey ≠ some [])
    (hkey' : objectKey' ≠ some [])
    (h : e.objectUrl grammar bucket objectKey style = .ok url)
    (h' : e.objectUrl grammar bucket' objectKey' style = .ok url')
    (hsame : url.serialized = url'.serialized) :
    bucket = bucket' ∧ objectKey = objectKey' := by
  have hsplit :=
    splitUri_serialized (Endpoint.objectUrl_target (Endpoint.new_valid he) h).1
  have hsplit' :=
    splitUri_serialized (Endpoint.objectUrl_target (Endpoint.new_valid he) h').1
  rw [hsame, hsplit'] at hsplit
  simp only [Uri.mk.injEq, Option.some.injEq] at hsplit
  obtain ⟨-, hauthority, hpaths⟩ := hsplit
  rw [Endpoint.objectUrl_path he h, Endpoint.objectUrl_path he h'] at hpaths
  cases style with
  | path =>
      have hkept : ∀ key, e.keptBase key .path = e.basePath := by
        intro key
        simp [Endpoint.keptBase]
      rw [hkept, hkept, List.append_cancel_left_eq] at hpaths
      exact objectSuffix_inj hpaths.symm
  | virtualHosted =>
      refine ⟨?_, hostedPath_inj hkey hkey' hpaths.symm⟩
      rw [Endpoint.objectUrl_authority h, Endpoint.objectUrl_authority h']
        at hauthority
      exact (List.append_cancel_right hauthority).symm

/-- **A URL of an endpoint names one bucket and one key**, and it keeps the
endpoint's scheme, host, port and base path when, and only when, the bucket
stands in the path or the endpoint's port, where it has one, is canonical. -/
theorem objectUrl_names_one_iff {input : Str}
    (he : Endpoint.new grammar input = .ok e) :
    (∀ (bucket : Str) (objectKey : Option Str) (style : AddressingStyle)
      (url : EndpointUrl),
      e.objectUrl grammar bucket objectKey style = .ok url →
      (Names e bucket objectKey style url ↔
        style = .path ∨ Authority.Canonical e.url.authority)) ∧
    ∀ (style : AddressingStyle) (bucket bucket' : Str)
      (objectKey objectKey' : Option Str) (url url' : EndpointUrl),
      objectKey ≠ some [] → objectKey' ≠ some [] →
      e.objectUrl grammar bucket objectKey style = .ok url →
      e.objectUrl grammar bucket' objectKey' style = .ok url' →
      url.serialized = url'.serialized →
      bucket = bucket' ∧ objectKey = objectKey' := by
  constructor
  · intro bucket objectKey style url h
    exact Endpoint.objectUrl_names_iff he h
  · intro style bucket bucket' objectKey objectKey' url url' hkey hkey' h h'
    exact Endpoint.objectUrl_inj he hkey hkey' h h'

/-- A grammar that refuses nothing. -/
def permissive : UriGrammar := ⟨fun _ => true, fun _ => true⟩

def dottedEndpoint : Endpoint :=
  ⟨⟨"https://s3.test:9000/base/", "https", "s3.test:9000", "/base/"⟩, "/base/"⟩

/-- A key that looks like a parent directory and a query, under a base path: the
URL is its own, and no other key has it. -/
theorem objectUrl_names_one_dotted :
    Names dottedEndpoint "data" (some "a/../b?c".toList) .virtualHosted
      ⟨"https://data.s3.test:9000/base/a/../b%3Fc", "https",
        "data.s3.test:9000", "/base/a/../b%3Fc"⟩ ∧
    ∀ key url, key ≠ some [] →
    dottedEndpoint.objectUrl permissive "data" key .virtualHosted = .ok url →
      "https://data.s3.test:9000/base/a/../b%3Fc".toList = url.serialized →
      some "a/../b?c".toList = key := by
  have he :
      Endpoint.new permissive "https://s3.test:9000/base" =
        .ok dottedEndpoint := rfl
  have hcanonical : Authority.Canonical dottedEndpoint.url.authority :=
    Or.inr ⟨9000, by decide, by decide⟩
  constructor
  · exact ((objectUrl_names_one_iff he).1 "data" _ .virtualHosted _ rfl).mpr
      (Or.inr hcanonical)
  · intro key url hkey h hsame
    exact ((objectUrl_names_one_iff he).2 .virtualHosted "data" "data" _ key
      ⟨_, "https", "data.s3.test:9000", "/base/a/../b%3Fc"⟩ url (by decide)
      hkey rfl h hsame).2

/-- An endpoint with a port that is none: the URL of a bucket goes to the
default port. -/
theorem objectUrl_moved :
    ∃ e url, Endpoint.new permissive "https://h:99999" = .ok e ∧
      e.objectUrl permissive "bucket" none .virtualHosted = .ok url ∧
      url.serialized = "https://bucket.h/" ∧
      ¬ Names e "bucket" none .virtualHosted url := by
  refine ⟨_, _, rfl, rfl, rfl, fun hnames => ?_⟩
  exact absurd hnames.authority (by decide)

end Names

end S3Wire
