/-
# `S3Wire.Protocol.UrlField` — fields that are decoded once

`decode_url_field` of `src/protocol/listing.rs` walks over the octets of a field
with an index that moves by one or by three.  The octets behind the index are a
text again (`decodeOctets_utf8`), and on texts the walk is the strict decoder of
`Lib.Percent`, once: what comes out is not looked at again.  So it undoes the
encoder of the requests in both of its modes, whatever the text is, and a page
of objects holds the keys that its document encodes, or none
(`parseListObjectsV2_ok`, `parseListObjectsV2_fails`).
-/
import S3Wire.Protocol.Listing
import S3Wire.Signing.Path

namespace S3Wire

/-! ## The loop -/

def invalidEscape (field : Str) : ProtocolError :=
  .invalidField field "invalid URL percent encoding"

/-- The `while` of `decode_url_field`, with at most so many rounds. -/
def decodeUrlLoop (field : Str) (input : Bytes) (rounds index : Nat)
    (decoded : Bytes) :
    Option (Except ProtocolError Bytes) :=
  match input[index]? with
  | none => some (.ok decoded)
  | some byte =>
      match rounds with
      | 0 => none
      | rounds + 1 =>
          if byte = 37 then
            match (input[index + 1]?).bind hexOctet,
                (input[index + 2]?).bind hexOctet with
            | some high, some low =>
                decodeUrlLoop field input rounds (index + 3)
                  (decoded ++ [UInt8.ofNat (16 * high + low)])
            | _, _ => some (.error (invalidEscape field))
          else decodeUrlLoop field input rounds (index + 1) (decoded ++ [byte])

section Loop

variable {field : Str}

theorem getElem?_behind (done rest : Bytes) (k : Nat) :
    (done ++ rest)[done.length + k]? = rest[k]? := by
  rw [List.getElem?_append_right (Nat.le_add_right _ _),
    Nat.add_sub_cancel_left]

theorem map_bind_pure {ε : Type} (decoded : Bytes) (b : UInt8)
    (x : Except ε Bytes) :
    (x >>= fun tail => pure (b :: tail)).map (decoded ++ ·) =
      x.map (decoded ++ [b] ++ ·) := by
  cases x with
  | error e => rfl
  | ok tail =>
      show Except.ok (decoded ++ b :: tail) = Except.ok (decoded ++ [b] ++ tail)
      rw [List.append_assoc, List.singleton_append]

/-- From an index on, the loop decodes the octets that are left.  Every round
takes one of them at least, so as many rounds are enough. -/
theorem decodeUrlLoop_behind : ∀ (rounds : Nat) (done rest decoded : Bytes),
    rest.length ≤ rounds →
    decodeUrlLoop field (done ++ rest) rounds done.length decoded =
      some ((decodeOctets field rest).map (decoded ++ ·))
  | rounds, done, [], decoded, _ => by
      rw [decodeUrlLoop, List.append_nil, List.getElem?_eq_none (le_refl _)]
      show _ = some (Except.ok (decoded ++ []))
      rw [List.append_nil]
  | 0, done, _ :: _, _, h => absurd h (Nat.not_succ_le_zero _)
  | rounds + 1, done, b :: rest, decoded, h => by
      have hfirst := getElem?_behind done (b :: rest) 0
      have hsecond := getElem?_behind done (b :: rest) 1
      have hthird := getElem?_behind done (b :: rest) 2
      rw [Nat.add_zero] at hfirst
      rw [decodeUrlLoop, hfirst, hsecond, hthird]
      dsimp only [List.getElem?_cons_zero, List.getElem?_cons_succ]
      by_cases hb : b = 37
      · rw [if_pos hb, decodeOctets.eq_def]
        dsimp only
        rw [if_pos hb]
        match rest, h with
        | [], _ => rfl
        | [high], _ =>
            cases hhigh : hexOctet high with
            | none =>
                dsimp only [List.getElem?_cons_zero, List.getElem?_cons_succ,
                  List.getElem?_nil, Option.bind_some]
                rw [hhigh]
                rfl
            | some value =>
                dsimp only [List.getElem?_cons_zero, List.getElem?_cons_succ,
                  List.getElem?_nil, Option.bind_some]
                rw [hhigh]
                rfl
        | high :: low :: tail, h =>
            dsimp only [List.getElem?_cons_zero, List.getElem?_cons_succ,
              Option.bind_some]
            cases hhigh : hexOctet high with
            | none => rfl
            | some hi =>
                cases hlow : hexOctet low with
                | none => rfl
                | some lo =>
                    have hrest : tail.length ≤ rounds := by
                      simp only [List.length_cons] at h
                      omega
                    have ih :=
                      decodeUrlLoop_behind rounds (done ++ [b, high, low]) tail
                      (decoded ++ [UInt8.ofNat (16 * hi + lo)]) hrest
                    rw [List.length_append, List.append_assoc] at ih
                    exact ih.trans
                      (congrArg some (map_bind_pure decoded _ _).symm)
      · have hrest : rest.length ≤ rounds := Nat.le_of_succ_le_succ h
        have ih :=
          decodeUrlLoop_behind rounds (done ++ [b]) rest (decoded ++ [b]) hrest
        rw [List.length_append, List.append_assoc] at ih
        rw [if_neg hb, decodeOctets.eq_def]
        dsimp only
        rw [if_neg hb]
        exact ih.trans (congrArg some (map_bind_pure decoded b _).symm)

theorem decodeUrlLoop_eq {rounds : Nat} {input : Bytes}
    (h : input.length ≤ rounds) :
    decodeUrlLoop field input rounds 0 [] =
      some (decodeOctets field input) := by
  have hloop := @decodeUrlLoop_behind field rounds [] input [] h
  rw [List.nil_append, List.length_nil] at hloop
  rw [hloop]
  cases decodeOctets field input <;> rfl

end Loop

/-! ## Decoding a text -/

section Text

variable {field value : Str}

/-- The first octet of a character is a digit when the character is, and then
there is no other. -/
theorem hexOctet_head (c : Char) : ∃ b bs, String.utf8EncodeChar c = b :: bs ∧
    hexOctet b = Lib.hexValue c ∧
    ((Lib.hexValue c).isSome → bs = []) := by
  by_cases hascii : c.toNat ≤ 127
  · refine ⟨UInt8.ofNat c.toNat, [], Lib.utf8EncodeChar_ascii hascii, ?_,
      fun _ => rfl⟩
    exact Lib.forall_ascii
      (P := fun c => hexOctet (UInt8.ofNat c.toNat) = Lib.hexValue c)
      (by decide +kernel) hascii
  · have hnone : Lib.hexValue c = none := by
      rw [Option.eq_none_iff_forall_not_mem]
      intro n hn
      exact hascii (Lib.hexValue_some hn).2
    have hlarge : ∀ b : UInt8, 127 < b.toNat → hexOctet b = none :=
      Lib.forall_byte (by decide +kernel)
    obtain ⟨b, bs, hbytes, hb⟩ := Lib.utf8EncodeChar_head (Nat.not_le.mp hascii)
    refine ⟨b, bs, hbytes, (hlarge b hb).trans hnone.symm, ?_⟩
    rw [hnone]
    intro h
    cases h

theorem decodeOctets_keep (rest : Bytes) : ∀ {bs : Bytes}, (∀ b ∈ bs, b ≠ 37) →
    decodeOctets field (bs ++ rest) = (decodeOctets field rest).map (bs ++ ·)
  | [], _ => by
      cases h : decodeOctets field rest <;> exact h
  | b :: bs, h => by
      obtain ⟨hb, hbs⟩ := List.forall_mem_cons.mp h
      rw [List.cons_append, decodeOctets.eq_def]
      dsimp only
      rw [if_neg hb, decodeOctets_keep rest hbs]
      cases decodeOctets field rest <;> rfl

theorem ne_percent_of_char {c : Char} (hc : c ≠ '%') :
    ∀ b ∈ String.utf8EncodeChar c, b ≠ 37 := by
  intro b hb
  by_cases hascii : c.toNat ≤ 127
  · have hne : c ≠ '%' → UInt8.ofNat c.toNat ≠ 37 :=
      Lib.forall_ascii (P := fun c => c ≠ '%' → UInt8.ofNat c.toNat ≠ 37)
        (by decide +kernel) hascii
    rw [Lib.utf8EncodeChar_ascii hascii, List.mem_singleton] at hb
    rw [hb]
    exact hne hc
  · have hlarge := Lib.utf8EncodeChar_large (Nat.not_le.mp hascii) b hb
    rintro rfl
    exact absurd hlarge (by decide)

theorem decodeOctets_high {b : UInt8} (rest : Bytes) (hb : hexOctet b = none) :
    decodeOctets field (37 :: b :: rest) = .error (invalidEscape field) := by
  rw [decodeOctets.eq_def]
  dsimp only
  rw [if_pos rfl]
  cases rest with
  | nil => rfl
  | cons low tail =>
      dsimp only
      rw [hb]
      rfl

theorem decodeOctets_low (b : UInt8) {low : UInt8} (rest : Bytes)
    (hlow : hexOctet low = none) :
    decodeOctets field (37 :: b :: low :: rest) =
      .error (invalidEscape field) := by
  rw [decodeOctets.eq_def]
  dsimp only
  rw [if_pos rfl, hlow]
  cases hexOctet b <;> rfl

theorem decodeOctets_utf8 : ∀ value : Str, decodeOctets field (Lib.utf8 value) =
    match Lib.percentDecode value with
    | some decoded => .ok decoded
    | none => .error (invalidEscape field)
  | [] => rfl
  | c :: rest => by
      by_cases hc : c = '%'
      · subst hc
        have hpercent : String.utf8EncodeChar '%' = [37] := rfl
        rw [Lib.utf8_cons, hpercent, List.singleton_append]
        match rest with
        | [] => rfl
        | [high] =>
            obtain ⟨b, bs, hbytes, hvalue, hone⟩ := hexOctet_head high
            rw [Lib.utf8_cons, hbytes, Lib.utf8_nil, List.append_nil]
            cases hhigh : Lib.hexValue high with
            | none => exact decodeOctets_high bs (hvalue.trans hhigh)
            | some n =>
                rw [hone (Option.isSome_of_eq_some hhigh)]
                rfl
        | high :: low :: tail =>
            have ih := decodeOctets_utf8 tail
            obtain ⟨b, bs, hbytes, hvalue, hone⟩ := hexOctet_head high
            obtain ⟨b', bs', hbytes', hvalue', hone'⟩ := hexOctet_head low
            rw [Lib.utf8_cons, hbytes, Lib.utf8_cons, hbytes']
            cases hhigh : Lib.hexValue high with
            | none =>
                rw [List.cons_append, decodeOctets_high _ (hvalue.trans hhigh),
                  Lib.percentDecode, if_pos rfl, hhigh]
            | some hi =>
                rw [hone (Option.isSome_of_eq_some hhigh),
                  List.singleton_append, List.cons_append]
                cases hlow : Lib.hexValue low with
                | none =>
                    rw [decodeOctets_low b _ (hvalue'.trans hlow),
                      Lib.percentDecode, if_pos rfl, hhigh, hlow]
                | some lo =>
                    rw [hone' (Option.isSome_of_eq_some hlow), List.nil_append,
                      decodeOctets.eq_def]
                    dsimp only
                    rw [if_pos rfl, hvalue, hvalue', hhigh, hlow,
                      Lib.percentDecode_triplet _ _ _ hhigh hlow]
                    dsimp only
                    rw [ih]
                    cases Lib.percentDecode tail <;> rfl
      · have ih := decodeOctets_utf8 rest
        rw [Lib.utf8_cons, decodeOctets_keep _ (ne_percent_of_char hc), ih,
          Lib.percentDecode_ne hc]
        cases Lib.percentDecode rest <;> rfl
  termination_by value => value.length

theorem percentDecode_isSome :
    ∀ {value : Str}, (∃ decoded, Lib.percentDecode value = some decoded) ↔
    EscapesValid value
  | [] => ⟨fun _ => escapesValid_nil, fun _ => ⟨[], rfl⟩⟩
  | c :: rest => by
      by_cases hc : c = '%'
      · subst hc
        constructor
        · rintro ⟨decoded, h⟩
          match rest, h with
          | [], h => cases h
          | [_], h => cases h
          | high :: low :: tail, h =>
              cases hhigh : Lib.hexValue high with
              | none =>
                  rw [Lib.percentDecode, if_pos rfl, hhigh] at h
                  cases h
              | some hi =>
                  cases hlow : Lib.hexValue low with
                  | none =>
                      rw [Lib.percentDecode, if_pos rfl, hhigh, hlow] at h
                      cases h
                  | some lo =>
                      rw [Lib.percentDecode_triplet _ _ _ hhigh hlow] at h
                      obtain ⟨decoded, htail, -⟩ := Option.map_eq_some_iff.mp h
                      exact (escapesValid_triplet
                        (Option.isSome_of_eq_some hhigh)
                        (Option.isSome_of_eq_some hlow)).mpr
                          (percentDecode_isSome.mp ⟨decoded, htail⟩)
        · intro h
          obtain ⟨high, low, tail, rfl, hhigh, hlow, htail⟩ :=
            escapesValid_percent h
          obtain ⟨hi, hhi⟩ := Option.isSome_iff_exists.mp hhigh
          obtain ⟨lo, hlo⟩ := Option.isSome_iff_exists.mp hlow
          obtain ⟨decoded, hdecoded⟩ := percentDecode_isSome.mpr htail
          rw [Lib.percentDecode_triplet _ _ _ hhi hlo, hdecoded]
          exact ⟨_, rfl⟩
      · rw [Lib.percentDecode_ne hc, escapesValid_cons hc,
          ← percentDecode_isSome]
        constructor
        · rintro ⟨decoded, h⟩
          obtain ⟨decoded, hrest, -⟩ := Option.map_eq_some_iff.mp h
          exact ⟨decoded, hrest⟩
        · rintro ⟨decoded, hrest⟩
          rw [hrest]
          exact ⟨_, rfl⟩
  termination_by value => value.length

variable {xml : XmlReader}

/-- A field is decoded to a text exactly when its decoding is the text's
octets. -/
theorem decodeUrlField_eq_ok {text : Str} :
    decodeUrlField xml field value = .ok text ↔
    Lib.percentDecode value = some (Lib.utf8 text) := by
  rw [decodeUrlField, decodeOctets_utf8]
  cases Lib.percentDecode value with
  | none =>
      constructor
      · intro h
        cases h
      · intro h
        cases h
  | some decoded =>
      rw [Option.some_inj, ← Lib.utf8Decode_eq_some]
      dsimp only [bind, Except.bind]
      cases Lib.utf8Decode decoded with
      | none =>
          constructor
          · intro h
            cases h
          · intro h
            cases h
      | some text' =>
          constructor
          · intro h
            exact congrArg some (Except.ok.inj h)
          · intro h
            exact congrArg Except.ok (Option.some.inj h)

theorem decodeUrlField_isOk :
    (∃ text, decodeUrlField xml field value = .ok text) ↔
    EscapesValid value ∧ ∀ decoded, Lib.percentDecode value = some decoded →
    ∃ text, decoded = Lib.utf8 text := by
  constructor
  · rintro ⟨text, h⟩
    have hdecode := decodeUrlField_eq_ok.mp h
    refine ⟨percentDecode_isSome.mp ⟨_, hdecode⟩, ?_⟩
    intro decoded hdecoded
    rw [hdecode] at hdecoded
    exact ⟨text, (Option.some.inj hdecoded).symm⟩
  · rintro ⟨hvalid, htext⟩
    obtain ⟨decoded, hdecoded⟩ := percentDecode_isSome.mpr hvalid
    obtain ⟨text, rfl⟩ := htext decoded hdecoded
    exact ⟨text, decodeUrlField_eq_ok.mpr hdecoded⟩

theorem decodeUrlField_encode (k : Str) (encodeSlash : Bool) :
    decodeUrlField xml field (awsUriEncode k encodeSlash) = .ok k := by
  rw [decodeUrlField_eq_ok, awsUriEncode]
  cases encodeSlash with
  | false => exact Lib.percentDecode_encode unreservedOrSlash_safe _
  | true => exact Lib.percentDecode_encode unreserved_safe _

end Text

/-! ## A page of objects -/

section Page

variable {xml : XmlReader} {body : Bytes} {maximum : Nat}
  {document : ListBucketDocument}
  {output : ListObjectsV2Output}

/-- The key of a listed object is the key of its decoded field. -/
def KeyDecoded (xml : XmlReader) (object : ObjectDocument)
    (listed : ListedObject) : Prop :=
  ∃ decoded, decodeUrlField xml "Contents.Key" object.key = .ok decoded ∧
    ObjectKey.new decoded = .ok listed.key

theorem parseKey_ok {field value : Str} {key : ObjectKey}
    (h : parseKey field value = .ok key) :
    ObjectKey.new value = .ok key := by
  rw [parseKey] at h
  split at h
  · cases h
  · next hkey =>
      cases h
      exact hkey

theorem listedObject_ok {object : ObjectDocument} {listed : ListedObject}
    (h : listedObject xml object = .ok listed) :
    KeyDecoded xml object listed := by
  obtain ⟨decoded, hdecoded, h⟩ := Lib.bind_ok h
  obtain ⟨key, hkey, h⟩ := Lib.bind_ok h
  obtain ⟨lastModified, -, h⟩ := Lib.bind_ok h
  cases h
  exact ⟨decoded, hdecoded, parseKey_ok hkey⟩

theorem parseListObjectsV2_ok
    (hdocument : parseBounded xml.listBucket body maximum = .ok document)
    (h : parseListObjectsV2 xml body maximum = .ok output) :
    List.Forall₂ (KeyDecoded xml) document.contents output.objects ∧
      List.Forall₂
        (fun field decoded => decodeUrlField xml "CommonPrefixes.Prefix" field =
          .ok decoded)
        document.commonPrefixes output.commonPrefixes := by
  obtain ⟨_, -, h⟩ := Lib.bind_ok h
  obtain ⟨document', hdocument', h⟩ := Lib.bind_ok h
  obtain rfl := Except.ok.inj (hdocument.symm.trans hdocument')
  split at h
  · cases h
  · obtain ⟨objects, hobjects, h⟩ := Lib.bind_ok h
    obtain ⟨commonPrefixes, hprefixes, h⟩ := Lib.bind_ok h
    cases h
    exact ⟨(Lib.mapM_ok hobjects).imp fun _ _ => listedObject_ok,
      Lib.mapM_ok hprefixes⟩

theorem parseListObjectsV2_fails
    (hdocument : parseBounded xml.listBucket body maximum = .ok document)
    (hfails :
    (∃ object ∈ document.contents, ∃ e,
      decodeUrlField xml "Contents.Key" object.key = .error e) ∨
      ∃ field ∈ document.commonPrefixes, ∃ e,
        decodeUrlField xml "CommonPrefixes.Prefix" field = .error e) :
    ∃ e, parseListObjectsV2 xml body maximum = .error e := by
  cases h : parseListObjectsV2 xml body maximum with
  | error e => exact ⟨e, rfl⟩
  | ok output =>
      obtain ⟨hobjects, hprefixes⟩ := parseListObjectsV2_ok hdocument h
      rcases hfails with ⟨object, hobject, e, he⟩ | ⟨field, hfield, e, he⟩
      · obtain ⟨listed, -, decoded, hdecoded, -⟩ :=
          Lib.forall₂_left hobjects object hobject
        rw [he] at hdecoded
        cases hdecoded
      · obtain ⟨decoded, -, hdecoded⟩ := Lib.forall₂_left hprefixes field hfield
        rw [he] at hdecoded
        cases hdecoded

end Page

/-! ## Fields and keys -/

/-- The loop ends; a field is accepted exactly when its escapes are ones and it
decodes to a text, which is then the result; encoding in either mode is undone,
once; and a page has the keys of its decoded fields, or there is none. -/
theorem decodeUrlField_spec (xml : XmlReader) :
    (∀ field value rounds, (Lib.utf8 value).length ≤ rounds →
      decodeUrlLoop field (Lib.utf8 value) rounds 0 [] =
        some (decodeOctets field (Lib.utf8 value))) ∧
    (∀ field value,
      ((∃ text, decodeUrlField xml field value = .ok text) ↔
        EscapesValid value ∧
          ∀ decoded, Lib.percentDecode value = some decoded →
          ∃ text, decoded = Lib.utf8 text) ∧
      ∀ text, decodeUrlField xml field value = .ok text →
      Lib.percentDecode value = some (Lib.utf8 text)) ∧
    (∀ field k encodeSlash,
      decodeUrlField xml field (awsUriEncode k encodeSlash) = .ok k) ∧
    (∀ k k' encodeSlash encodeSlash', awsUriEncode k encodeSlash =
      awsUriEncode k' encodeSlash' → k = k') ∧
    (∀ field k encodeSlash encodeSlash', decodeUrlField xml field
      (awsUriEncode (awsUriEncode k encodeSlash) encodeSlash') =
        .ok (awsUriEncode k encodeSlash)) ∧
    ∀ body maximum document, parseBounded xml.listBucket body maximum =
      .ok document →
      (∀ output, parseListObjectsV2 xml body maximum = .ok output →
        List.Forall₂ (KeyDecoded xml) document.contents output.objects ∧
        List.Forall₂
          (fun field decoded =>
            decodeUrlField xml "CommonPrefixes.Prefix" field = .ok decoded)
          document.commonPrefixes output.commonPrefixes) ∧
      ((∃ object ∈ document.contents, ∃ e,
        decodeUrlField xml "Contents.Key" object.key = .error e) ∨
        (∃ field ∈ document.commonPrefixes, ∃ e,
          decodeUrlField xml "CommonPrefixes.Prefix" field = .error e) →
        ∃ e, parseListObjectsV2 xml body maximum = .error e) := by
  refine ⟨?_, ?_, ?_, ?_, ?_, ?_⟩
  · intro field value rounds h
    exact decodeUrlLoop_eq h
  · intro field value
    exact ⟨decodeUrlField_isOk, fun text => decodeUrlField_eq_ok.mp⟩
  · intro field k encodeSlash
    exact decodeUrlField_encode k encodeSlash
  · intro k k' encodeSlash encodeSlash' h
    have hk := @decodeUrlField_encode [] xml k encodeSlash
    rw [h, decodeUrlField_encode] at hk
    exact (Except.ok.inj hk).symm
  · intro field k encodeSlash encodeSlash'
    exact decodeUrlField_encode _ encodeSlash'
  · intro body maximum document hdocument
    refine ⟨?_, ?_⟩
    · intro output h
      exact parseListObjectsV2_ok hdocument h
    · intro hfails
      exact parseListObjectsV2_fails hdocument hfails

end S3Wire
