/-
# `S3Wire.Signing.Path` — the loop over a path, octet by octet

`canonical_uri_from_encoded` runs an index over the octets of the path and cuts
the text at that index, which stops the program unless a character starts there.
`uriStep` is that loop body as it is written, with `none` for a cut that is
refused; `canonicalUriLoop_eq` says that this never happens, that as many rounds
are enough as the path has octets, and that the result is the recursion over
characters of `canonicalUriFromEncoded`.

The form of what comes out is `CanonicalForm`; paths of that form are exactly
the ones that are left as they are (`canonicalPath_eq_self_iff`).  The encoder
of an endpoint writes that form, so a path goes over the wire as it is signed
(`wirePath_signed`).
-/
import S3Wire.Endpoint

namespace S3Wire

/-! ## The loop -/

/-- `hex_value`. -/
def hexValueByte (byte : UInt8) : Option Nat :=
  if 48 ≤ byte ∧ byte ≤ 57 then some (byte.toNat - 48)
  else if 97 ≤ byte ∧ byte ≤ 102 then some (byte.toNat - 97 + 10)
  else if 65 ≤ byte ∧ byte ≤ 70 then some (byte.toNat - 65 + 10)
  else none

/-- `bytes.get(index).and_then(hex_value)`. -/
def hexAt (path : Str) (index : Nat) : Option Nat :=
  (Lib.utf8 path)[index]?.bind hexValueByte

/-- `&path[start..start + count]`; `none` is a panic. -/
def sliceText (path : Str) (start count : Nat) : Option Str :=
  (Lib.dropOctets path start).bind fun rest => Lib.takeOctets rest count

/-- One round for the byte at an index: the next index and the text so far.
`none` is a panic. -/
def uriStep (path : Str) (byte : UInt8) (index : Nat) (canonical : Str) :
    Option (Except SigningError (Nat × Str)) :=
  if byte = 37 then
    match hexAt path (index + 1), hexAt path (index + 2) with
    | some high, some low =>
        some (.ok
          (index + 3, canonical ++ ['%', Lib.hexDigit high, Lib.hexDigit low]))
    | _, _ => some (.error .invalidEncodedUri)
  else if isUnreservedOrSlash byte then
    some (.ok (index + 1, canonical ++ [Char.ofNat byte.toNat]))
  else do
    -- `path.get(index..)` answers `None` where the slices below panic
    let text ←
      match (Lib.dropOctets path index).bind List.head? with
      | some character => sliceText path index (Lib.width character)
      | none => some []
    let remaining ← Lib.dropOctets path index
    some (.ok
      (index + (remaining.head?.map Lib.width).getD 1,
        canonical ++ awsUriEncode text true))

/-- `while index < bytes.len()`, for a number of rounds; `none` is a panic, or
that the rounds were not enough. -/
def uriLoop (path : Str) : Nat → Nat → Str → Option (Except SigningError Str)
  | rounds, index, canonical =>
      match (Lib.utf8 path)[index]? with
      | none => some (.ok canonical)
      | some byte =>
          match rounds with
          | 0 => none
          | rounds + 1 =>
              match uriStep path byte index canonical with
              | none => none
              | some (.error e) => some (.error e)
              | some (.ok (index, canonical)) =>
                  uriLoop path rounds index canonical

/-- The loop, for at most so many rounds. -/
def canonicalUriLoop (path : Str) (rounds : Nat) :
    Option (Except SigningError Str) :=
  (uriLoop path rounds 0 (if path.head? = some '/' then [] else ['/'])).map
      fun result =>
    result.map fun canonical => if canonical.isEmpty then ['/'] else canonical

/-- The states of the loop. -/
inductive UriState (path : Str) : Nat → Str → Prop where
  | start : UriState path 0 (if path.head? = some '/' then [] else ['/'])
  | step {index index' : Nat} {canonical canonical' : Str} {byte : UInt8} :
      UriState path index canonical → (Lib.utf8 path)[index]? = some byte →
      uriStep path byte index canonical = some (.ok (index', canonical')) →
      UriState path index' canonical'

/-- A character starts at this octet, or the text ends there. -/
def OnBoundary (path : Str) (index : Nat) : Prop :=
  ∃ done rest, path = done ++ rest ∧ index = (Lib.utf8 done).length

section Loop

variable {path done rest canonical : Str} {c : Char}

theorem hexValueByte_ofNat {c : Char} (h : c.toNat ≤ 127) :
    hexValueByte (UInt8.ofNat c.toNat) = Lib.hexValue c :=
  Lib.forall_ascii
    (P := fun c => hexValueByte (UInt8.ofNat c.toNat) = Lib.hexValue c)
    (by decide +kernel) h

theorem hexValueByte_none {b : UInt8} (h : 127 < b.toNat) :
    hexValueByte b = none := by
  have hle : ∀ {n : UInt8}, n.toNat ≤ 127 → ¬b ≤ n := by
    intro n hn hb
    rw [UInt8.le_iff_toNat_le] at hb
    omega
  simp [hexValueByte, hle]

theorem hexAt_done (done : Str) : ∀ rest : Str,
    hexAt (done ++ rest) (Lib.utf8 done).length = rest.head?.bind Lib.hexValue
  | [] => by
      rw [List.append_nil, hexAt, List.getElem?_eq_none (le_refl _)]
      rfl
  | c :: rest => by
      have hget : (Lib.utf8 (done ++ c :: rest))[(Lib.utf8 done).length]? =
          (String.utf8EncodeChar c ++ Lib.utf8 rest)[0]? := by
        rw [Lib.utf8_append, Lib.utf8_cons,
          List.getElem?_append_right (le_refl _), Nat.sub_self]
      rw [hexAt, hget]
      by_cases hascii : c.toNat ≤ 127
      · rw [Lib.utf8EncodeChar_ascii hascii]
        exact hexValueByte_ofNat hascii
      · obtain ⟨b, bs, hb, hlarge⟩ := Lib.utf8EncodeChar_head (not_le.mp hascii)
        rw [hb]
        show hexValueByte b = Lib.hexValue c
        rw [hexValueByte_none hlarge]
        cases hvalue : Lib.hexValue c with
        | none => rfl
        | some n => exact absurd (Lib.hexValue_some hvalue).2 hascii

theorem hexAt_first (done rest : Str) :
    hexAt (done ++ '%' :: rest) ((Lib.utf8 done).length + 1) =
      rest.head?.bind Lib.hexValue := by
  have h := hexAt_done (done ++ ['%']) rest
  rw [Lib.utf8_append, List.length_append, List.append_assoc] at h
  exact h

theorem hexAt_second (done rest : Str) {high : Char} {value : Nat}
    (hvalue : Lib.hexValue high = some value) :
    hexAt (done ++ '%' :: high :: rest) ((Lib.utf8 done).length + 2) =
      rest.head?.bind Lib.hexValue := by
  have h := hexAt_done (done ++ ['%', high]) rest
  rw [Lib.utf8_append, List.length_append, List.append_assoc, Lib.utf8_cons,
    Lib.utf8_cons,
    Lib.utf8EncodeChar_ascii (Lib.hexValue_some hvalue).2] at h
  exact h

theorem getElem?_done (done : Str) (c : Char) (rest : Str) :
    ∃ b, (Lib.utf8 (done ++ c :: rest))[(Lib.utf8 done).length]? = some b ∧
      ((c.toNat ≤ 127 ∧ b = UInt8.ofNat c.toNat) ∨
        (127 < c.toNat ∧ 127 < b.toNat)) := by
  have hget : (Lib.utf8 (done ++ c :: rest))[(Lib.utf8 done).length]? =
      (String.utf8EncodeChar c ++
      Lib.utf8 rest)[0]? := by
    rw [Lib.utf8_append, Lib.utf8_cons, List.getElem?_append_right (le_refl _),
      Nat.sub_self]
  rw [hget]
  by_cases hascii : c.toNat ≤ 127
  · rw [Lib.utf8EncodeChar_ascii hascii]
    exact ⟨_, rfl, Or.inl ⟨hascii, rfl⟩⟩
  · obtain ⟨b, bs, hb, hlarge⟩ := Lib.utf8EncodeChar_head (not_le.mp hascii)
    rw [hb]
    exact ⟨b, rfl, Or.inr ⟨not_le.mp hascii, hlarge⟩⟩

/-- What one round takes from the text and what it writes for it. -/
def uriPiece (c : Char) (rest : Str) : Except SigningError (Str × Str) :=
  if c = '%' then
    match rest with
    | high :: low :: _ =>
        match Lib.hexValue high, Lib.hexValue low with
        | some hi, some lo =>
            .ok (['%', high, low], ['%', Lib.hexDigit hi, Lib.hexDigit lo])
        | _, _ => .error .invalidEncodedUri
    | _ => .error .invalidEncodedUri
  else if isCharOf isUnreservedOrSlash c then .ok ([c], [c])
  else .ok ([c], awsUriEncode [c] true)

theorem uriStep_percent (done rest canonical : Str) :
    uriStep (done ++ '%' :: rest) 37 (Lib.utf8 done).length canonical =
      some ((uriPiece '%' rest).map fun (taken, written) =>
        ((Lib.utf8 (done ++ taken)).length, canonical ++ written)) := by
  unfold uriStep uriPiece
  rw [if_pos rfl, if_pos rfl, hexAt_first]
  cases rest with
  | nil => rfl
  | cons high rest =>
      rw [List.head?_cons, Option.bind_some]
      cases hhigh : Lib.hexValue high with
      | none => cases rest <;> simp [hhigh, Except.map]
      | some hi =>
          rw [hexAt_second done rest hhigh]
          cases rest with
          | nil => rfl
          | cons low rest =>
              rw [List.head?_cons, Option.bind_some]
              cases hlow : Lib.hexValue low with
              | none => simp [hhigh, hlow, Except.map]
              | some lo =>
                  have hascii := (Lib.hexValue_some hhigh).2
                  have hascii' := (Lib.hexValue_some hlow).2
                  have hwidth :
                      (Lib.utf8 (done ++ ['%', high, low])).length =
                          (Lib.utf8 done).length + 3 := by
                    rw [Lib.utf8_append, List.length_append, Lib.utf8_cons,
                      Lib.utf8_cons, Lib.utf8_cons,
                      Lib.utf8EncodeChar_ascii hascii,
                        Lib.utf8EncodeChar_ascii hascii']
                    rfl
                  simp only [hhigh, hlow, Except.map, hwidth]

theorem dropOctets_done (done rest : Str) (c : Char) :
    Lib.dropOctets (done ++ c :: rest) (Lib.utf8 done).length =
      some (c :: rest) ∧
      sliceText (done ++ c :: rest) (Lib.utf8 done).length (Lib.width c) =
        some [c] := by
  have hdrop := Lib.dropOctets_append done (c :: rest)
  refine ⟨hdrop, ?_⟩
  have htake := Lib.takeOctets_append [c] rest
  rw [Lib.length_utf8_cons] at htake
  rw [sliceText, hdrop]
  exact htake

theorem uriStep_done {byte : UInt8} (done rest canonical : Str) (c : Char)
    (hbyte : (Lib.utf8 (done ++ c :: rest))[(Lib.utf8 done).length]? =
      some byte) :
    uriStep (done ++ c :: rest) byte (Lib.utf8 done).length canonical =
      some ((uriPiece c rest).map fun (taken, written) =>
        ((Lib.utf8 (done ++ taken)).length, canonical ++ written)) := by
  obtain ⟨b, hb, hclass⟩ := getElem?_done done c rest
  obtain rfl : b = byte := Option.some.inj (hb.symm.trans hbyte)
  by_cases hc : c = '%'
  · subst hc
    obtain ⟨-, rfl⟩ | ⟨hlarge, -⟩ := hclass
    · exact uriStep_percent done rest canonical
    · exact absurd hlarge (by decide)
  have hwidth :
      (Lib.utf8 (done ++ [c])).length =
          (Lib.utf8 done).length + Lib.width c := by
    rw [Lib.utf8_append, List.length_append, Lib.length_utf8_cons]
    rfl
  have hbyte37 : b ≠ 37 := by
    rintro rfl
    obtain ⟨hascii, heq⟩ | ⟨-, hlarge⟩ := hclass
    · refine hc (Char.toNat_inj.mp ?_)
      have hn := congrArg UInt8.toNat heq
      rw [UInt8.toNat_ofNat', Nat.mod_eq_of_lt (by omega)] at hn
      exact hn.symm
    · exact absurd hlarge (by decide)
  have hsafe : isUnreservedOrSlash b = isCharOf isUnreservedOrSlash c := by
    obtain ⟨hascii, rfl⟩ | ⟨hlarge, hlarge'⟩ := hclass
    · simp [isCharOf, hascii]
    · have hnot : isUnreservedOrSlash b = false := by
        rw [Bool.eq_false_iff]
        intro hun
        have hle := (unreservedOrSlash_safe b hun).1
        omega
      have hwide : ¬c.toNat ≤ 127 := not_le.mpr hlarge
      simp [hnot, isCharOf, hwide]
  unfold uriStep uriPiece
  rw [if_neg hbyte37, if_neg hc, hsafe]
  split
  · next hchar =>
      obtain ⟨hascii, rfl⟩ | ⟨hlarge, -⟩ := hclass
      · have hone :
          Lib.width c = 1 := by
            rw [Lib.width, Lib.utf8EncodeChar_ascii hascii]; rfl
        have hself : Char.ofNat (UInt8.ofNat c.toNat).toNat = c := by
          rw [UInt8.toNat_ofNat', Nat.mod_eq_of_lt (by omega), Char.ofNat_toNat]
        simp only [Except.map, hwidth, hone, hself]
      · simp only [isCharOf, Bool.and_eq_true, decide_eq_true_eq] at hchar
        omega
  · obtain ⟨hdrop, hslice⟩ := dropOctets_done done rest c
    simp only [hdrop, Option.bind_some, List.head?_cons, hslice, Except.map,
      hwidth]
    rfl

theorem uriPiece_taken {rest taken written : Str} {c : Char}
    (h : uriPiece c rest = .ok (taken, written)) :
    ∃ left, c :: rest = taken ++ left ∧ taken ≠ [] := by
  unfold uriPiece at h
  split at h
  · next hc =>
      split at h
      · next high low tail =>
          split at h
          · cases h
            exact ⟨tail, by simp [hc], by simp⟩
          · cases h
      · cases h
  · split at h
    · cases h
      exact ⟨rest, rfl, by simp⟩
    · cases h
      exact ⟨rest, rfl, by simp⟩

theorem canonicalPath_piece (c : Char) (rest : Str) :
    canonicalPath (c :: rest) =
      match uriPiece c rest with
      | .error e => .error e
      | .ok (taken, written) =>
          (canonicalPath ((c :: rest).drop taken.length)).map
              (written ++ ·) := by
  rw [canonicalPath.eq_def]
  unfold uriPiece
  simp only
  split
  · rcases rest with _ | ⟨high, _ | ⟨low, tail⟩⟩
    · rfl
    · rfl
    · cases hhigh : Lib.hexValue high with
      | none => simp [hhigh]
      | some hi =>
          cases hlow : Lib.hexValue low with
          | none => simp [hhigh, hlow]
          | some lo => simp [hhigh, hlow]
  · split
    · rfl
    · rfl

/-- **The loop is the recursion over characters**, from any character on. -/
theorem uriLoop_done (done canonical : Str) : ∀ (rounds : Nat) (rest : Str),
    rest.length ≤ rounds →
    uriLoop (done ++ rest) rounds (Lib.utf8 done).length canonical =
      some ((canonicalPath rest).map (canonical ++ ·)) := by
  intro rounds
  induction rounds generalizing done canonical with
  | zero =>
      intro rest hrounds
      obtain rfl := List.length_eq_zero_iff.mp (Nat.le_zero.mp hrounds)
      rw [List.append_nil, uriLoop, List.getElem?_eq_none (le_refl _)]
      simp [canonicalPath, Except.map]
  | succ rounds ih =>
      intro rest hrounds
      cases rest with
      | nil =>
          rw [List.append_nil, uriLoop, List.getElem?_eq_none (le_refl _)]
          simp [canonicalPath, Except.map]
      | cons c rest =>
          obtain ⟨byte, hbyte, -⟩ := getElem?_done done c rest
          rw [uriLoop, hbyte]
          simp only
          rw [uriStep_done done rest canonical c hbyte, canonicalPath_piece]
          cases hpiece : uriPiece c rest with
          | error e => rfl
          | ok piece =>
              obtain ⟨taken, written⟩ := piece
              obtain ⟨left, hleft, htaken⟩ := uriPiece_taken hpiece
              have hlen := congrArg List.length hleft
              have hpos := List.length_pos_of_ne_nil htaken
              rw [List.length_append, List.length_cons] at hlen
              rw [List.length_cons] at hrounds
              have hrest :=
                ih (done ++ taken) (canonical ++ written) left (by omega)
              rw [List.append_assoc, ← hleft] at hrest
              simp only [Except.map]
              rw [hrest, hleft, List.drop_left]
              cases canonicalPath left with
              | error e => rfl
              | ok next => simp [Except.map]

theorem canonicalPath_slash (h : canonicalPath ('/' :: rest) = .ok canonical) :
    ∃ next, canonicalPath rest = .ok next ∧ canonical = '/' :: next := by
  have hstep :
      canonicalPath ('/' :: rest) = (canonicalPath rest).map ('/' :: ·) := by
    rw [canonicalPath.eq_def]
    rfl
  rw [hstep] at h
  cases hrest : canonicalPath rest with
  | error e => simp [hrest, Except.map] at h
  | ok next =>
      simp only [hrest, Except.map, Except.ok.injEq] at h
      exact ⟨next, rfl, h.symm⟩

/-- As many rounds as there are characters are enough, and nothing panics. -/
theorem canonicalUriLoop_eq {rounds : Nat} (hrounds : path.length ≤ rounds) :
    canonicalUriLoop path rounds = some (canonicalUriFromEncoded path) := by
  have hloop :=
    uriLoop_done []
      (if path.head? = some '/' then [] else ['/']) rounds path hrounds
  rw [List.nil_append, Lib.utf8_nil, List.length_nil] at hloop
  rw [canonicalUriLoop, hloop, canonicalUriFromEncoded]
  cases hpath : canonicalPath path with
  | error e => rfl
  | ok canonical =>
      simp only [Except.map, Option.map_some, Option.some.injEq,
        Except.ok.injEq]
      by_cases hslash : path.head? = some '/'
      · -- a path that starts with a slash is not empty, and neither is what comes of it
        obtain ⟨rest, rfl⟩ := List.head?_eq_some_iff.mp hslash
        obtain ⟨next, -, rfl⟩ := canonicalPath_slash hpath
        rfl
      · simp [hslash]

theorem onBoundary_step {index index' : Nat} {canonical canonical' : Str}
    {byte : UInt8} (hindex : OnBoundary path index)
    (hbyte : (Lib.utf8 path)[index]? = some byte)
    (hstep : uriStep path byte index canonical =
      some (.ok (index', canonical'))) :
    OnBoundary path index' := by
  obtain ⟨done, rest, rfl, rfl⟩ := hindex
  cases rest with
  | nil =>
      rw [List.append_nil, List.getElem?_eq_none (le_refl _)] at hbyte
      cases hbyte
  | cons c rest =>
      rw [uriStep_done done rest canonical c hbyte] at hstep
      cases hpiece : uriPiece c rest with
      | error e => simp [hpiece, Except.map] at hstep
      | ok piece =>
          obtain ⟨taken, written⟩ := piece
          obtain ⟨left, hleft, -⟩ := uriPiece_taken hpiece
          simp only [hpiece, Except.map, Option.some.injEq, Except.ok.injEq,
            Prod.mk.injEq] at hstep
          exact ⟨done ++ taken, left, by rw [hleft, List.append_assoc],
            hstep.1.symm⟩

theorem UriState.onBoundary {index : Nat} (h : UriState path index canonical) :
    OnBoundary path index := by
  induction h with
  | start => exact ⟨[], path, rfl, rfl⟩
  | step _ hbyte hstep ih => exact onBoundary_step ih hbyte hstep

end Loop

/-! ## The form of a canonical path -/

/-- Unreserved characters, slashes and triplets of upper-case digits. -/
inductive CanonicalForm : Str → Prop where
  | nil : CanonicalForm []
  | char {c : Char} {rest : Str} : isCharOf isUnreservedOrSlash c = true →
      CanonicalForm rest →
      CanonicalForm (c :: rest)
  | triplet {high low : Char} {rest : Str} : high ∈ Lib.upperHex →
      low ∈ Lib.upperHex →
      CanonicalForm rest → CanonicalForm ('%' :: high :: low :: rest)

/-- Every percent sign is followed by two hexadecimal digits. -/
def EscapesValid (path : Str) : Prop :=
  ∀ before after, path = before ++ '%' :: after →
    ∃ high low rest, after = high :: low :: rest ∧ (Lib.hexValue high).isSome ∧
      (Lib.hexValue low).isSome

section Form

variable {path canonical rest : Str} {c high low : Char}

theorem escapesValid_nil : EscapesValid [] := by
  intro before after h
  cases before <;> cases h

theorem escapesValid_cons (hc : c ≠ '%') : EscapesValid (c :: rest) ↔
    EscapesValid rest := by
  constructor
  · rintro h before after rfl
    exact h (c :: before) after rfl
  · intro h before after heq
    cases before with
    | nil => exact absurd (List.cons.inj heq).1 hc
    | cons d before => exact h before after (List.cons.inj heq).2

theorem percent_not_hex : Lib.hexValue '%' = none := rfl

theorem escapesValid_triplet (hhigh : (Lib.hexValue high).isSome)
    (hlow : (Lib.hexValue low).isSome) :
    EscapesValid ('%' :: high :: low :: rest) ↔ EscapesValid rest := by
  have hne : ∀ {d : Char}, (Lib.hexValue d).isSome → d ≠ '%' := by
    rintro d hd rfl
    rw [percent_not_hex] at hd
    cases hd
  constructor
  · rintro h before after rfl
    exact h ('%' :: high :: low :: before) after rfl
  · intro h before after heq
    cases before with
    | nil => exact ⟨high, low, rest, (List.cons.inj heq).2.symm, hhigh, hlow⟩
    | cons d before =>
        exact (escapesValid_cons (hne hhigh)).mpr
          ((escapesValid_cons (hne hlow)).mpr h) before after
          (List.cons.inj heq).2

theorem escapesValid_percent (h : EscapesValid ('%' :: rest)) :
    ∃ high low tail, rest = high :: low :: tail ∧ (Lib.hexValue high).isSome ∧
    (Lib.hexValue low).isSome ∧
      EscapesValid tail := by
  obtain ⟨high, low, tail, rfl, hhigh, hlow⟩ := h [] rest rfl
  exact ⟨high, low, tail, rfl, hhigh, hlow,
    (escapesValid_triplet hhigh hlow).mp h⟩

/-- The loop goes through exactly when every escape is one. -/
theorem canonicalPath_isOk :
    ∀ {path : Str}, (∃ canonical, canonicalPath path = .ok canonical) ↔
    EscapesValid path
  | [] => ⟨fun _ => escapesValid_nil, fun _ => ⟨[], rfl⟩⟩
  | c :: rest => by
      constructor
      · rintro ⟨canonical, h⟩
        rcases canonicalPath_cons h with ⟨high, low, tail, hi, lo, next, rfl,
          rfl, hhi, hlo, hnext, -⟩ |
          ⟨hc, -, next, hnext, -⟩ | ⟨hc, next, hnext, -⟩
        · have htail := canonicalPath_isOk.mp ⟨next, hnext⟩
          exact (escapesValid_triplet (by simp [hhi]) (by simp [hlo])).mpr htail
        · exact (escapesValid_cons hc).mpr (canonicalPath_isOk.mp ⟨next, hnext⟩)
        · exact (escapesValid_cons hc).mpr (canonicalPath_isOk.mp ⟨next, hnext⟩)
      · intro h
        by_cases hc : c = '%'
        · subst hc
          obtain ⟨high, low, tail, rfl, hhigh, hlow, htail⟩ :=
            escapesValid_percent h
          obtain ⟨hi, hhi⟩ := Option.isSome_iff_exists.mp hhigh
          obtain ⟨lo, hlo⟩ := Option.isSome_iff_exists.mp hlow
          obtain ⟨next, hnext⟩ := canonicalPath_isOk.mpr htail
          exact ⟨'%' :: Lib.hexDigit hi :: Lib.hexDigit lo :: next, by
            simp [canonicalPath, hhi, hlo, hnext, Except.map]⟩
        · obtain ⟨next, hnext⟩ :=
            canonicalPath_isOk.mpr ((escapesValid_cons hc).mp h)
          rw [canonicalPath.eq_def]
          simp only [hc, if_false, hnext, Except.map]
          split
          · exact ⟨_, rfl⟩
          · exact ⟨_, rfl⟩
  termination_by path => path.length

/-- What an encoder writes has the form, whatever follows. -/
theorem CanonicalForm.encode_append {safe : UInt8 → Bool}
    (hsafe : ∀ b, safe b = true → isUnreservedOrSlash b = true)
    (hrest : CanonicalForm rest) :
    ∀ bytes : Bytes, CanonicalForm (Lib.percentEncode safe bytes ++ rest)
  | [] => hrest
  | b :: bytes => by
      have ih := CanonicalForm.encode_append hsafe hrest bytes
      unfold Lib.percentEncode at ih ⊢
      rw [List.flatMap_cons, List.append_assoc]
      by_cases hb : safe b = true
      · rw [if_pos hb]
        exact .char (isCharOf_ofNat unreservedOrSlash_safe (hsafe b hb)) ih
      · obtain ⟨hhigh, hlow, -⟩ := Lib.nibbles b
        rw [if_neg hb]
        exact .triplet (Lib.hexDigit_mem _ hhigh) (Lib.hexDigit_mem _ hlow) ih

theorem CanonicalForm.append (hpath : CanonicalForm path)
    (hrest : CanonicalForm rest) :
    CanonicalForm (path ++ rest) := by
  induction hpath with
  | nil => exact hrest
  | char hc _ ih => exact .char hc ih
  | triplet hhigh hlow _ ih => exact .triplet hhigh hlow ih

theorem isUnreservedOrSlash_of_unreserved (b : UInt8)
    (h : isUnreserved b = true) :
    isUnreservedOrSlash b = true := by
  simp [isUnreservedOrSlash, h]

theorem canonicalForm_of_canonicalPath :
    ∀ {path canonical : Str}, canonicalPath path = .ok canonical →
    CanonicalForm canonical
  | [], canonical, h => by
      cases h
      exact .nil
  | c :: rest, canonical, h => by
      rcases canonicalPath_cons h with ⟨high, low, tail, hi, lo, next, rfl, rfl,
        hhi, hlo, hnext, rfl⟩ |
        ⟨-, hsafe, next, hnext, rfl⟩ | ⟨-, next, hnext, rfl⟩
      · exact .triplet (Lib.hexDigit_mem hi (Lib.hexValue_some hhi).1)
          (Lib.hexDigit_mem lo (Lib.hexValue_some hlo).1)
            (canonicalForm_of_canonicalPath hnext)
      · exact .char hsafe (canonicalForm_of_canonicalPath hnext)
      · exact CanonicalForm.encode_append isUnreservedOrSlash_of_unreserved
          (canonicalForm_of_canonicalPath hnext) _
  termination_by path => path.length

theorem hexDigit_hexValue : ∀ c ∈ Lib.upperHex, ∃ n, Lib.hexValue c = some n ∧
    Lib.hexDigit n = c := by
  have hall :
      (Lib.upperHex.all fun c => (Lib.hexValue c).any fun n =>
          Lib.hexDigit n == c) = true := by
    decide
  intro c hc
  have h := List.all_eq_true.mp hall c hc
  rw [Option.any_eq_true_iff_get] at h
  obtain ⟨hsome, hdigit⟩ := h
  exact ⟨_, (Option.some_get hsome).symm, beq_iff_eq.mp hdigit⟩

theorem ne_percent_of_charOf (h : isCharOf isUnreservedOrSlash c = true) :
    c ≠ '%' := by
  rintro rfl
  cases h

theorem canonicalPath_eq_self_iff : canonicalPath path = .ok path ↔
    CanonicalForm path := by
  constructor
  · exact canonicalForm_of_canonicalPath
  · intro h
    induction h with
    | nil => rfl
    | char hc _ ih =>
        rw [canonicalPath.eq_def]
        simp only [ne_percent_of_charOf hc, if_false, hc, if_true, ih,
          Except.map]
    | triplet hhigh hlow _ ih =>
        obtain ⟨hi, hhi, hhigh⟩ := hexDigit_hexValue _ hhigh
        obtain ⟨lo, hlo, hlow⟩ := hexDigit_hexValue _ hlow
        simp [canonicalPath, hhi, hlo, hhigh, hlow, ih, Except.map]

theorem CanonicalForm.decodes (h : CanonicalForm path) :
    ∃ bytes, Lib.percentDecode path = some bytes := by
  induction h with
  | nil => exact ⟨[], rfl⟩
  | char hc _ ih =>
      obtain ⟨bytes, hbytes⟩ := ih
      rw [Lib.percentDecode_ne (ne_percent_of_charOf hc), hbytes]
      exact ⟨_, rfl⟩
  | triplet hhigh hlow _ ih =>
      obtain ⟨bytes, hbytes⟩ := ih
      obtain ⟨hi, hhi, -⟩ := hexDigit_hexValue _ hhigh
      obtain ⟨lo, hlo, -⟩ := hexDigit_hexValue _ hlow
      rw [Lib.percentDecode_triplet _ _ _ hhi hlo, hbytes]
      exact ⟨_, rfl⟩

theorem canonicalUriFromEncoded_ok {uri : Str}
    (h : canonicalUriFromEncoded path = .ok uri) :
    ∃ canonical, canonicalPath path = .ok canonical ∧
      uri = if path.head? = some '/' then canonical else '/' :: canonical := by
  unfold canonicalUriFromEncoded at h
  cases hpath : canonicalPath path with
  | error e => simp [hpath, Except.map] at h
  | ok canonical =>
      simp only [hpath, Except.map, Except.ok.injEq] at h
      exact ⟨canonical, rfl, h.symm⟩

theorem canonicalUriFromEncoded_isOk :
    (∃ uri, canonicalUriFromEncoded path = .ok uri) ↔ EscapesValid path := by
  rw [← canonicalPath_isOk]
  constructor
  · rintro ⟨uri, h⟩
    obtain ⟨canonical, hpath, -⟩ := canonicalUriFromEncoded_ok h
    exact ⟨canonical, hpath⟩
  · rintro ⟨canonical, h⟩
    exact ⟨_, by rw [canonicalUriFromEncoded, h]; rfl⟩

theorem canonicalUriFromEncoded_form {uri : Str}
    (h : canonicalUriFromEncoded path = .ok uri) :
    CanonicalForm uri ∧ uri.head? = some '/' := by
  obtain ⟨canonical, hpath, rfl⟩ := canonicalUriFromEncoded_ok h
  have hform := canonicalForm_of_canonicalPath hpath
  split
  · next hslash =>
      refine ⟨hform, ?_⟩
      obtain ⟨rest, rfl⟩ := List.head?_eq_some_iff.mp hslash
      obtain ⟨next, -, rfl⟩ := canonicalPath_slash hpath
      rfl
  · exact ⟨.char (by decide) hform, rfl⟩

theorem canonicalUriFromEncoded_eq_self (h : CanonicalForm path)
    (hrooted : path.head? = some '/') :
    canonicalUriFromEncoded path = .ok path := by
  rw [canonicalUriFromEncoded, canonicalPath_eq_self_iff.mpr h]
  simp [Except.map, hrooted]

end Form

/-! ## Two encoders -/

/-- The loop of `aws_uri_encode`. -/
def awsUriEncodeLoop (input : Str) (encodeSlash : Bool) : Str :=
  (Lib.utf8 input).foldl
    (fun encoded byte =>
      if isAlphanumericByte byte ||
          (byte == 45 || byte == 46 || byte == 95 || byte == 126) ||
          (byte == 47 && !encodeSlash) then
        encoded ++ [Char.ofNat byte.toNat]
      else
        encoded ++ ['%'] ++ [Lib.hexDigit (byte >>> 4).toNat] ++
          [Lib.hexDigit (byte &&& 0x0f).toNat])
    []

def pushPercentEncoded (byte : UInt8) (output : Str) : Str :=
  output ++ ['%'] ++ [Lib.hexDigit (byte >>> 4).toNat] ++
    [Lib.hexDigit (byte &&& 0x0f).toNat]

/-- The loop of `encode_object_key`, which appends to a path. -/
def encodeObjectKeyLoop (bytes : Bytes) (output : Str) : Str :=
  bytes.foldl
    (fun output byte =>
      if byte == 47 || isUnreserved byte then output ++ [Char.ofNat byte.toNat]
      else pushPercentEncoded byte output)
    output

section Encoders

theorem pushPercentEncoded_eq (byte : UInt8) (output : Str) :
    pushPercentEncoded byte output = output ++ Lib.percentTriplet byte := by
  simp [pushPercentEncoded, Lib.percentTriplet]

theorem awsUriEncodeLoop_eq (input : Str) (encodeSlash : Bool) :
    awsUriEncodeLoop input encodeSlash = awsUriEncode input encodeSlash := by
  rw [awsUriEncodeLoop, awsUriEncode]
  refine Lib.foldl_percentEncode (fun output byte => ?_) (Lib.utf8 input) []
  have hsafe :
      (isAlphanumericByte byte ||
        (byte == 45 || byte == 46 || byte == 95 || byte == 126) ||
      (byte == 47 && !encodeSlash)) =
          (if encodeSlash then isUnreserved else isUnreservedOrSlash) byte := by
    cases encodeSlash <;>
      simp [isUnreserved, isUnreservedOrSlash, Bool.or_assoc]
  have hpush := pushPercentEncoded_eq byte output
  unfold pushPercentEncoded at hpush
  rw [hsafe, hpush]
  exact (apply_ite (output ++ ·) _ _ _).symm

theorem encodeObjectKeyLoop_eq (bytes : Bytes) (output : Str) :
    encodeObjectKeyLoop bytes output = output ++ encodeObjectKey bytes := by
  rw [encodeObjectKeyLoop, encodeObjectKey]
  refine Lib.foldl_percentEncode (fun output byte => ?_) bytes output
  rw [pushPercentEncoded_eq, isUnreservedOrSlash, Bool.or_comm]
  exact (apply_ite (output ++ ·) _ _ _).symm

end Encoders

/-! ## The wire and the signature -/

section Wire

variable {grammar : UriGrammar} {e : Endpoint} {bucket : Str}
  {objectKey : Option Str}
  {style : AddressingStyle} {url target : EndpointUrl}

theorem CanonicalForm.dropLast {path : Str} (h : CanonicalForm path)
    (hlast : path.getLast? = some '/') :
    CanonicalForm path.dropLast := by
  induction h with
  | nil => exact .nil
  | @char c rest hc hrest ih =>
      cases rest with
      | nil => exact .nil
      | cons d rest =>
          rw [List.getLast?_cons_cons] at hlast
          exact .char hc (ih hlast)
  | @triplet high low rest hhigh hlow hrest ih =>
      cases rest with
      | nil =>
          -- a triplet does not end in a slash
          have hslash : low = '/' := Option.some.inj hlast
          rw [hslash] at hlow
          exact absurd hlow (by decide)
      | cons d rest =>
          rw [List.getLast?_cons_cons, List.getLast?_cons_cons,
            List.getLast?_cons_cons] at hlast
          exact .triplet hhigh hlow (ih hlast)

theorem canonicalForm_encodeObjectKey (key : Str) :
    CanonicalForm (encodeObjectKey (Lib.utf8 key)) := by
  have h := CanonicalForm.encode_append (fun _ hb => hb) .nil (Lib.utf8 key)
  rwa [List.append_nil] at h

theorem CanonicalForm.objectPath (hbase : CanonicalForm e.basePath)
    (hlast : e.basePath.getLast? = some '/') :
    CanonicalForm (e.objectPath bucket objectKey style) := by
  have hkey := canonicalForm_encodeObjectKey
  have hbucket : CanonicalForm (encodePathComponent (Lib.utf8 bucket)) := by
    have h :=
      CanonicalForm.encode_append isUnreservedOrSlash_of_unreserved .nil
        (Lib.utf8 bucket)
    rwa [List.append_nil] at h
  have hslash : CanonicalForm ['/'] := .char (by decide) .nil
  unfold Endpoint.objectPath
  cases style with
  | path =>
      cases objectKey with
      | none => exact hbase.append hbucket
      | some key =>
          simp only
          split
          · exact ((hbase.append hbucket).append hslash).append (hkey key)
          · exact (hbase.append hbucket).append (hkey key)
  | virtualHosted =>
      cases objectKey with
      | none =>
          simp only
          split
          · exact hbase.dropLast hlast
          · exact hbase
      | some key =>
          simp only
          split
          · exact (hbase.append hslash).append (hkey key)
          · exact hbase.append (hkey key)

theorem awsUriEncode_key (key : Str) :
    awsUriEncode key false = encodeObjectKey (Lib.utf8 key) := rfl

theorem uriPath_of_rooted {scheme authority : Option Str} {pathAndQuery : Str}
    (h : pathAndQuery.head? = some '/') :
    Uri.path ⟨scheme, authority, pathAndQuery⟩ = pathOf pathAndQuery := by
  have hrooted := pathOf_rooted h
  unfold Uri.path
  cases hpath : pathOf pathAndQuery with
  | nil => simp [hpath] at hrooted
  | cons c rest => simp

/-- The path of a URL survives a query, and is read back from the text sent. -/
theorem wirePath_withQuery {query : Str} (hurl : url.Target)
    (hplain : '?' ∉ url.pathAndQuery)
    (h : url.withQuery grammar query = .ok target) :
    pathOf target.pathAndQuery = url.pathAndQuery ∧
    (splitUri target.serialized).path = url.pathAndQuery := by
  have htarget := hurl.withQuery h
  obtain ⟨-, hparts⟩ := EndpointUrl.withQuery_eq h
  obtain ⟨heq, -⟩ := EndpointUrl.fromParts_eq hparts
  have hself : pathOf url.pathAndQuery = url.pathAndQuery :=
    Lib.beforeFirst_of_not_mem hplain
  have hpath : pathOf target.pathAndQuery = url.pathAndQuery := by
    rw [heq, hself]
    simp only
    split
    · exact hself
    · exact Lib.beforeFirst_append query hplain
  refine ⟨hpath, ?_⟩
  rw [splitUri_serialized htarget, uriPath_of_rooted htarget.rooted, hpath]

/-- **The loop over a path**: it ends without a panic, its index at a character
all along; it succeeds when every escape is one; what it returns is rooted, has
the canonical form, stands for the same octets and is left as it is.  The two
encoders agree on every key, their output is left as it is, and so is the whole
path of every request to an endpoint whose base path has the form: it is signed
as it is sent. -/
theorem canonicalUri_spec :
    (∀ (path : Str) (rounds : Nat), (Lib.utf8 path).length ≤ rounds →
      canonicalUriLoop path rounds = some (canonicalUriFromEncoded path)) ∧
    (∀ (path : Str) (index : Nat) (canonical : Str),
      UriState path index canonical →
      OnBoundary path index) ∧
    (∀ path : Str, (∃ uri, canonicalUriFromEncoded path = .ok uri) ↔
      EscapesValid path) ∧
    (∀ path uri : Str, canonicalUriFromEncoded path = .ok uri →
      uri.head? = some '/' ∧ CanonicalForm uri ∧
      (∃ bytes, Lib.percentDecode uri = some bytes ∧
        Lib.percentDecode (rooted path) = some bytes) ∧
      canonicalUriFromEncoded uri = .ok uri) ∧
    (∀ key output : Str, encodeObjectKeyLoop (Lib.utf8 key) output =
      output ++ awsUriEncodeLoop key false ∧
      canonicalUriFromEncoded ('/' :: awsUriEncodeLoop key false) =
        .ok ('/' :: awsUriEncodeLoop key false)) ∧
    ∀ (grammar : UriGrammar) (input : Str) (e : Endpoint),
      Endpoint.new grammar input = .ok e →
      CanonicalForm e.basePath →
      ∀ (bucket : Str) (objectKey : Option Str) (style : AddressingStyle)
        (url : EndpointUrl),
        e.objectUrl grammar bucket objectKey style = .ok url →
        canonicalUriFromEncoded url.pathAndQuery = .ok url.pathAndQuery ∧
        (splitUri url.serialized).path = url.pathAndQuery ∧
        ∀ (query : Str) (target : EndpointUrl), url.withQuery grammar query =
          .ok target →
          canonicalUriFromEncoded (pathOf target.pathAndQuery) =
            .ok (splitUri target.serialized).path := by
  refine ⟨?_, fun _ _ _ h => h.onBoundary,
    fun _ => canonicalUriFromEncoded_isOk, ?_, ?_, ?_⟩
  · intro path rounds hrounds
    exact canonicalUriLoop_eq (le_trans (Lib.length_le_utf8 path) hrounds)
  · intro path uri h
    obtain ⟨hform, hrooted⟩ := canonicalUriFromEncoded_form h
    obtain ⟨bytes, hbytes⟩ := hform.decodes
    refine ⟨hrooted, hform, ⟨bytes, hbytes, ?_⟩,
      canonicalUriFromEncoded_eq_self hform hrooted⟩
    rw [← (canonicalUriFromEncoded_spec h).2, hbytes]
  · intro key output
    refine ⟨?_, ?_⟩
    · rw [encodeObjectKeyLoop_eq, awsUriEncodeLoop_eq, awsUriEncode_key]
    · rw [awsUriEncodeLoop_eq, awsUriEncode_key]
      exact canonicalUriFromEncoded_eq_self
        (.char (by decide) (canonicalForm_encodeObjectKey key)) rfl
  · intro grammar input e he hbase bucket objectKey style url hurl
    obtain ⟨htarget, hplain⟩ :=
      Endpoint.objectUrl_target (Endpoint.new_valid he) hurl
    obtain ⟨authority, -, hparts⟩ := Endpoint.objectUrl_eq hurl
    have hform : CanonicalForm url.pathAndQuery := by
      obtain ⟨rfl, -⟩ := EndpointUrl.fromParts_eq hparts
      exact CanonicalForm.objectPath hbase (Endpoint.new_closed he)
    have hsigned := canonicalUriFromEncoded_eq_self hform htarget.rooted
    refine ⟨hsigned, ?_, ?_⟩
    · rw [splitUri_serialized htarget, uriPath_of_rooted htarget.rooted, pathOf,
        Lib.beforeFirst_of_not_mem hplain]
    · intro query target hquery
      obtain ⟨hpath, hwire⟩ := wirePath_withQuery htarget hplain hquery
      rw [hpath, hwire, hsigned]

/-- A key with a space and a letter outside of ASCII, with the path it is sent
under. -/
theorem canonicalUri_spec_key :
    canonicalUriFromEncoded "/data/a%20%C3%A9".toList =
      .ok "/data/a%20%C3%A9".toList :=
  (canonicalUri_spec.2.2.2.2.2
    ⟨fun _ => true, fun _ => true⟩ "https://s3.test" _ rfl
    (.char (by decide) .nil) "data" (some "a é".toList) .path _ rfl).1

end Wire

end S3Wire
