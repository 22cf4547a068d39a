/-
# `S3Wire.Signing.Headers` — what the canonical headers are

`canonical_headers` of `src/signing/canonical.rs`.  The loop fills a map that is
ordered by lowercase name; what the map is in the end does not depend on how it
was filled (`ordered_eq`): its names are those of the headers, ascending, and
under a name stand the normalised values of the headers with that name, in their
order.  The automaton over a value computes its words, joined by single spaces
(`normalizeLoop_eq`).

From these two facts follow when the headers are accepted
(`canonicalHeaders_isOk`), what the block is and how it is read back, and what
does not change it: the letter case of a name, the spacing of a value, the order
of headers with different names.
-/
import S3Wire.Lib.Fallible
import S3Wire.Lib.Words
import S3Wire.Signing.Canonical

namespace S3Wire

/-! ## The automaton over a value -/

def isBlank (c : Char) : Bool := c == ' ' || c == '\t'

/-- The words of a value, one space between them. -/
def normalized (value : Str) : Str :=
  [' '].intercalate (Lib.words isBlank value)

section Normalize

variable {value : Str}

/-- Words after others, each with a space in front. -/
def spacedWords (pieces : List Str) : Str :=
  (pieces.filter fun piece => !piece.isEmpty).flatMap fun word => ' ' :: word

theorem intercalate_cons (word : Str) : ∀ words : List Str,
    [' '].intercalate (word :: words) = word ++ words.flatMap fun word =>
      ' ' :: word
  | [] => by simp
  | next :: words => by
      rw [List.intercalate_cons_cons, intercalate_cons next words,
        List.flatMap_cons]
      simp

/-- The automaton when something was written already: with a space pending the
first piece is a word of its own, without one it goes on with the word that was
begun. -/
theorem normalizeLoop_written : ∀ (value normalized : Str), normalized ≠ [] →
    normalizeLoop value normalized true =
      normalized ++ spacedWords (value.splitOnP isBlank) ∧
    ∀ first rest, value.splitOnP isBlank = first :: rest →
      normalizeLoop value normalized false = normalized ++ first ++
        spacedWords rest
  | [], normalized, _ => by
      rw [List.splitOnP_nil]
      refine ⟨by simp [normalizeLoop, spacedWords], ?_⟩
      intro first rest h
      obtain ⟨rfl, rfl⟩ := List.cons.inj h
      simp [normalizeLoop, spacedWords]
  | c :: value, normalized, hne => by
      obtain ⟨piece, pieces, hsplit⟩ :=
        List.exists_cons_of_ne_nil (List.splitOnP_ne_nil isBlank value)
      have hwritten : normalized.isEmpty = false := by simpa using hne
      rw [List.splitOnP_cons_eq_if_modifyHead, hsplit, List.modifyHead_cons]
      by_cases hc : c = ' ' ∨ c = '\t'
      · have hblank : isBlank c = true := by simpa [isBlank] using hc
        obtain ⟨hpending, -⟩ := normalizeLoop_written value normalized hne
        rw [hsplit] at hpending
        simp only [normalizeLoop, if_pos hc, hwritten, Bool.not_false,
          if_pos hblank]
        refine ⟨by rw [hpending]; rfl, ?_⟩
        intro first rest h
        obtain ⟨rfl, rfl⟩ := List.cons.inj h
        rw [hpending, List.append_nil]
      · have hblank : isBlank c = false := by simpa [isBlank] using hc
        have hcontinued :=
          fun written =>
            (normalizeLoop_written value (normalized ++ written)
              (by simp [hne])).2
          piece pieces hsplit
        simp only [normalizeLoop, if_neg hc, if_true, Bool.false_eq_true,
          if_false, hblank]
        refine ⟨?_, ?_⟩
        · rw [hcontinued]
          simp [spacedWords]
        · intro first rest h
          obtain ⟨rfl, rfl⟩ := List.cons.inj h
          rw [hcontinued]
          simp

theorem normalizeLoop_eq :
    ∀ value : Str, normalizeLoop value [] false = normalized value
  | [] => by simp [normalizeLoop, normalized]
  | c :: value => by
      by_cases hc : c = ' ' ∨ c = '\t'
      · have hblank : isBlank c = true := by simpa [isBlank] using hc
        rw [normalizeLoop, if_pos hc, normalized, Lib.words_cons hblank]
        exact normalizeLoop_eq value
      · have hblank : isBlank c = false := by simpa [isBlank] using hc
        obtain ⟨piece, pieces, hsplit⟩ :=
          List.exists_cons_of_ne_nil (List.splitOnP_ne_nil isBlank value)
        have hbegun :=
          (normalizeLoop_written value [c] (by simp)).2 piece pieces hsplit
        have hwords : Lib.words isBlank (c :: value) =
            (c :: piece) :: pieces.filter fun piece => !piece.isEmpty := by
          rw [Lib.words, List.splitOnP_cons_eq_if_modifyHead, hsplit,
            List.modifyHead_cons,
            if_neg (by simp [hblank])]
          rfl
        rw [normalizeLoop, if_neg hc, normalized, hwords, intercalate_cons]
        simp only [Bool.false_eq_true, if_false, List.nil_append]
        rw [hbegun]
        rfl

theorem normalizeHeaderValue_eq (value : Str) :
    normalizeHeaderValue value =
      if value.any isForbiddenControl then .error .invalidHeaderValue
        else .ok (normalized value) := by
  rw [normalizeHeaderValue, normalizeLoop_eq]

theorem isWord_of_normalized {word : Str} (h : word ∈ Lib.words isBlank value) :
    word ≠ [] ∧ ' ' ∉ word ∧ '\t' ∉ word := by
  obtain ⟨hne, hletters⟩ := Lib.isWord_of_mem h
  refine ⟨hne, ?_, ?_⟩
  · intro hmem
    exact absurd (hletters _ hmem) (by decide)
  · intro hmem
    exact absurd (hletters _ hmem) (by decide)

theorem words_normalized (value : Str) :
    Lib.words isBlank (normalized value) = Lib.words isBlank value :=
  Lib.words_join (by decide) fun _ h => Lib.isWord_of_mem h

theorem normalized_idempotent (value : Str) :
    normalized (normalized value) = normalized value := by
  rw [normalized, words_normalized, normalized]

theorem tab_not_mem_normalized (value : Str) : '\t' ∉ normalized value := by
  intro h
  rcases Lib.mem_intercalate h with h | ⟨word, hword, h⟩
  · cases h
  · exact (isWord_of_normalized hword).2.2 h

theorem spaced_normalized (value : Str) : Lib.Spaced ' ' (normalized value) :=
  Lib.spaced_join fun _ h =>
    ⟨(isWord_of_normalized h).1, (isWord_of_normalized h).2.1⟩

theorem normalized_eq_nil_iff : normalized value = [] ↔
    Lib.IsGap isBlank value := by
  rw [← Lib.words_eq_nil_iff]
  constructor
  · intro h
    rw [← words_normalized, h, Lib.words_nil]
  · intro h
    rw [normalized, h, List.intercalate_nil]

theorem isForbiddenControl_blank {c : Char} (h : isBlank c = true) :
    isForbiddenControl c = false := by
  simp only [isBlank, Bool.or_eq_true, beq_iff_eq] at h
  rcases h with rfl | rfl
  · decide
  · decide

theorem normalizeHeaderValue_respaced {value' : Str}
    (h : Lib.Respaced isBlank value value') :
    normalizeHeaderValue value' = normalizeHeaderValue value := by
  have hany : value'.any isForbiddenControl = value.any isForbiddenControl := by
    rw [Bool.eq_iff_iff, List.any_eq_true, List.any_eq_true]
    refine exists_congr fun c => and_congr_left fun hc => (h.letters ?_).symm
    by_contra hblank
    rw [isForbiddenControl_blank (by simpa using hblank)] at hc
    cases hc
  rw [normalizeHeaderValue_eq, normalizeHeaderValue_eq, hany, normalized,
    normalized, h.words_eq]

end Normalize

/-! ## The map, however it was filled -/

/-- The headers with a lowercase name, in their order. -/
def namedHeaders (headers : List Header) (name : Str) : List Header :=
  headers.filter fun header => toAsciiLowercase header.name == name

/-- `ordered.get(name)`, empty when there is none. -/
def valuesAt (ordered : List (Str × List Str)) (name : Str) : List Str :=
  ((ordered.find? fun entry => entry.1 == name).map Prod.snd).getD []

/-- A header that the first loop accepts. -/
structure Acceptable (header : Header) : Prop where
  name : header.name ≠ [] ∧ ∀ c ∈ header.name, isHeaderTokenChar c = true
  value : ∀ c ∈ header.value, isForbiddenControl c = false

/-- What the map is while it is filled: ascending names, and no name without a
value. -/
structure OrderedMap (ordered : List (Str × List Str)) : Prop where
  ascending : (ordered.map Prod.fst).Pairwise (· < ·)
  filled : ∀ entry ∈ ordered, entry.2 ≠ []

section Map

variable {headers headers' : List Header}
  {ordered ordered' : List (Str × List Str)} {name m : Str}

theorem pushHeader_ordered {value : Str} : ∀ {ordered : List (Str × List Str)},
    OrderedMap ordered →
    OrderedMap (pushHeader name value ordered)
  | [], _ => ⟨by simp [pushHeader], by simp [pushHeader]⟩
  | (n, values) :: rest, h => by
      obtain ⟨hhead, hrest⟩ := List.pairwise_cons.mp h.ascending
      obtain ⟨hvalues, hfilled⟩ := List.forall_mem_cons.mp h.filled
      unfold pushHeader
      split
      · exact ⟨h.ascending, List.forall_mem_cons.mpr ⟨by simp, hfilled⟩⟩
      · next hne =>
          split
          · next hlt =>
              refine ⟨List.pairwise_cons.mpr ⟨?_, h.ascending⟩,
                List.forall_mem_cons.mpr ⟨by simp, h.filled⟩⟩
              intro other hother
              rcases List.mem_cons.mp hother with rfl | hother
              · exact hlt
              · exact lt_trans hlt (hhead other hother)
          · next hnot =>
              have ih : OrderedMap (pushHeader name value rest) :=
                pushHeader_ordered ⟨hrest, hfilled⟩
              refine ⟨List.pairwise_cons.mpr ⟨?_, ih.ascending⟩,
                List.forall_mem_cons.mpr ⟨hvalues, ih.filled⟩⟩
              intro other hother
              rcases pushHeader_names.mp hother with rfl | hother
              · exact lt_of_le_of_ne (not_lt.mp hnot) hne
              · exact hhead other hother

theorem valuesAt_pushHeader {value : Str} : ∀ {ordered : List (Str × List Str)},
    OrderedMap ordered →
    valuesAt (pushHeader name value ordered) m =
      if name = m then valuesAt ordered m ++ [value] else valuesAt ordered m
  | [], _ => by
      by_cases hm : name = m
      · simp [pushHeader, valuesAt, hm]
      · simp [pushHeader, valuesAt, hm]
  | (n, values) :: rest, h => by
      obtain ⟨hhead, hrest⟩ := List.pairwise_cons.mp h.ascending
      have hfilled := (List.forall_mem_cons.mp h.filled).2
      unfold pushHeader
      split
      · next hn =>
          subst hn
          by_cases hm : n = m
          · simp [valuesAt, hm]
          · simp [valuesAt, hm]
      · next hne =>
          split
          · next hlt =>
              by_cases hm : name = m
              · -- the name is below all names of the map, so it is none of them
                have habsent : valuesAt ((n, values) :: rest) m = [] := by
                  rw [valuesAt, List.find?_eq_none.mpr]
                  · rfl
                  · intro entry hentry heq
                    have hentry' :
                        entry.1 ∈ ((n, values) :: rest).map Prod.fst :=
                      List.mem_map_of_mem hentry
                    rw [beq_iff_eq.mp heq, ← hm] at hentry'
                    rcases List.mem_cons.mp hentry' with rfl | hmem
                    · exact hne rfl
                    · exact lt_asymm hlt (hhead name hmem)
                rw [habsent]
                simp [valuesAt, hm]
              · simp [valuesAt, hm]
          · have ih : valuesAt (pushHeader name value rest) m =
                if name = m then valuesAt rest m ++ [value]
                else valuesAt rest m :=
              valuesAt_pushHeader ⟨hrest, hfilled⟩
            by_cases hm : n = m
            · subst hm
              rw [if_neg (Ne.symm hne)]
              simp [valuesAt]
            · have hskip : ∀ {tail : List (Str × List Str)},
                  valuesAt ((n, values) :: tail) m = valuesAt tail m := by
                intro tail
                simp [valuesAt, hm]
              rw [hskip, hskip, ih]

theorem orderHeaders_cons {header : Header} :
    orderHeaders (header :: headers) ordered =
      if !validHeaderName header.name then .error .invalidHeaderName
      else if header.value.any isForbiddenControl then
        .error .invalidHeaderValue
      else orderHeaders headers
        (pushHeader (toAsciiLowercase header.name)
          (normalized header.value) ordered) := by
  rw [orderHeaders, normalizeHeaderValue_eq]
  cases header.value.any isForbiddenControl with
  | true => rfl
  | false => rfl

theorem acceptable_iff {header : Header} :
    Acceptable header ↔ validHeaderName header.name = true ∧
    header.value.any isForbiddenControl = false := by
  rw [validHeaderName, Bool.and_eq_true, List.all_eq_true, Bool.not_eq_true',
    List.isEmpty_eq_false_iff,
    List.any_eq_false]
  simp only [Bool.not_eq_true]
  constructor
  · exact fun h => ⟨h.name, h.value⟩
  · exact fun h => ⟨h.1, h.2⟩

/-- The first loop succeeds on headers that are acceptable, and on no others. -/
theorem orderHeaders_isOk :
    ∀ {headers : List Header} {ordered : List (Str × List Str)},
    (∃ ordered', orderHeaders headers ordered = .ok ordered') ↔
    ∀ header ∈ headers, Acceptable header
  | [], ordered => by simp [orderHeaders]
  | header :: headers, ordered => by
      rw [orderHeaders_cons, List.forall_mem_cons, acceptable_iff]
      cases hname : validHeaderName header.name with
      | false => simp
      | true =>
          cases hvalue : header.value.any isForbiddenControl with
          | true => simp
          | false =>
              have ih := @orderHeaders_isOk headers
                (pushHeader (toAsciiLowercase header.name)
                  (normalized header.value) ordered)
              simpa using ih

/-- What the first loop leaves in the map: the old values of a name, then those
of the headers. -/
theorem orderHeaders_map :
    ∀ {headers : List Header} {ordered ordered' : List (Str × List Str)},
    orderHeaders headers ordered = .ok ordered' → OrderedMap ordered →
    OrderedMap ordered' ∧
      ∀ name, valuesAt ordered' name = valuesAt ordered name ++
        (namedHeaders headers name).map fun header => normalized header.value
  | [], ordered, ordered', h, hordered => by
      cases h
      exact ⟨hordered, fun name => by simp [namedHeaders]⟩
  | header :: headers, ordered, ordered', h, hordered => by
      rw [orderHeaders_cons] at h
      split at h
      · cases h
      split at h
      · cases h
      obtain ⟨hordered', hvalues⟩ :=
        orderHeaders_map h (pushHeader_ordered hordered)
      refine ⟨hordered', fun name => ?_⟩
      rw [hvalues, valuesAt_pushHeader hordered]
      by_cases hname : toAsciiLowercase header.name = name
      · simp [namedHeaders, hname]
      · simp [namedHeaders, hname]

theorem OrderedMap.eq_map (h : OrderedMap ordered) :
    ordered = (ordered.map Prod.fst).map fun name =>
      (name, valuesAt ordered name) := by
  rw [List.map_map]
  conv_lhs => rw [← List.map_id ordered]
  refine List.map_congr_left fun entry hentry => ?_
  have hfind : ordered.find? (fun other => other.1 == entry.1) =
      some entry := by
    have hascending := h.ascending
    clear h
    induction ordered with
    | nil => cases hentry
    | cons first rest ih =>
        obtain ⟨hfirst, hrest⟩ := List.pairwise_cons.mp hascending
        rcases List.mem_cons.mp hentry with rfl | hentry
        · simp
        · have hlt := hfirst entry.1 (List.mem_map_of_mem hentry)
          rw [List.find?_cons_of_neg (by simpa using ne_of_lt hlt)]
          exact ih hentry hrest
  rw [Function.comp_apply, valuesAt, hfind]
  rfl

/-- **The map is determined by the headers**: its names ascend and are those of
the headers, and a name stands with its values in their order. -/
theorem ordered_eq (h : orderHeaders headers [] = .ok ordered) :
    (ordered.map Prod.fst).Pairwise (· < ·) ∧
    (∀ name, name ∈ ordered.map Prod.fst ↔
      ∃ header ∈ headers, toAsciiLowercase header.name = name) ∧
    ordered = (ordered.map Prod.fst).map fun name =>
      (name, (namedHeaders headers name).map fun header =>
          normalized header.value) := by
  obtain ⟨hordered, hvalues⟩ := orderHeaders_map h ⟨List.Pairwise.nil, by simp⟩
  refine ⟨hordered.ascending, fun name => ?_, ?_⟩
  · rw [orderHeaders_names h]
    simp
  · conv_lhs => rw [hordered.eq_map]
    refine List.map_congr_left fun name _ => ?_
    rw [hvalues]
    rfl

end Map

/-! ## Accepted headers -/

/-- The host: the one header of its name, with something in its value. -/
def NamesHost (headers : List Header) : Prop :=
  ∃ host, namedHeaders headers hostName = [host] ∧
    ∃ c ∈ host.value, isBlank c = false

/-- The values of a name, normalised and joined. -/
def joinedValues (headers : List Header) (name : Str) : Str :=
  [','].intercalate
    ((namedHeaders headers name).map fun header => normalized header.value)

/-- The lines of a block, each cut at its first colon. -/
def readHeaderBlock (block : Str) : Option (List (Str × Str)) :=
  (block.splitOn '\n').dropLast.mapM (Lib.splitOnce ':')

/-- What is rendered of accepted headers, with the names that are signed. -/
structure CanonicalBlock (headers : List Header) (canonical : CanonicalHeaders)
    (names : List Str) : Prop where
  mem_names : ∀ name, name ∈ names ↔
    ∃ header ∈ headers, toAsciiLowercase header.name = name
  ascending : names.Pairwise fun m n => Lib.octets m < Lib.octets n
  signed : canonical.signed = [';'].intercalate names
  lines : canonical.canonical =
    Lib.block '\n'
      (names.map fun name => headerLine (name, joinedValues headers name))
  readNames : canonical.signed.splitOn ';' = names
  read : readHeaderBlock canonical.canonical =
    some (names.map fun name => (name, joinedValues headers name))

/-- The name in another letter case, the value with other blanks. -/
structure Respelled (header header' : Header) : Prop where
  name : toAsciiLowercase header.name = toAsciiLowercase header'.name
  value : Lib.Respaced isBlank header.value header'.value

/-- Headers of one name in the same order. -/
def Reordered (headers headers' : List Header) : Prop :=
  ∀ name, namedHeaders headers name = namedHeaders headers' name

section Accepted

variable {headers headers' : List Header} {ordered : List (Str × List Str)}
  {canonical : CanonicalHeaders}

theorem canonicalHeaders_eq_ok : canonicalHeaders headers = .ok canonical ↔
    ∃ ordered, orderHeaders headers [] = .ok ordered ∧
      (∃ value, valuesAt ordered hostName = [value] ∧ value ≠ []) ∧
      canonical = renderHeaders ordered := by
  unfold canonicalHeaders
  cases horder : orderHeaders headers [] with
  | error e => simp
  | ok ordered =>
      cases hfind : ordered.find? fun entry => entry.1 == hostName with
      | none =>
          -- whether the map is empty or not, there is no host
          have hvalues : valuesAt ordered hostName = [] := by
            rw [valuesAt, hfind]; rfl
          simp [hvalues, hfind]
      | some entry =>
          obtain ⟨name, values⟩ := entry
          have hvalues : valuesAt ordered hostName = values := by
            rw [valuesAt, hfind]; rfl
          have hne : ordered.isEmpty = false := by
            rw [List.isEmpty_eq_false_iff]
            rintro rfl
            cases hfind
          simp only [hne, Bool.false_eq_true, if_false, Except.ok.injEq,
            exists_eq_left', hvalues, hfind]
          rcases values with _ | ⟨value, _ | ⟨next, rest⟩⟩
          · simp
          · by_cases hvalue : value = []
            · simp [hvalue]
            · simp [hvalue, eq_comm]
          · simp

theorem isGap_iff {value : Str} : ¬Lib.IsGap isBlank value ↔
    ∃ c ∈ value, isBlank c = false := by
  simp [Lib.IsGap]

theorem valuesAt_host (h : orderHeaders headers [] = .ok ordered) :
    (∃ value, valuesAt ordered hostName = [value] ∧ value ≠ []) ↔
    NamesHost headers := by
  obtain ⟨-, hvalues⟩ := orderHeaders_map h ⟨List.Pairwise.nil, by simp⟩
  have hhost := hvalues hostName
  have hnone : valuesAt [] hostName = [] := rfl
  rw [hnone, List.nil_append] at hhost
  rw [hhost, NamesHost]
  constructor
  · rintro ⟨value, hvalue, hne⟩
    obtain ⟨host, hhost, rfl⟩ := List.map_eq_singleton_iff.mp hvalue
    exact ⟨host, hhost, isGap_iff.mp fun hgap =>
      hne (normalized_eq_nil_iff.mpr hgap)⟩
  · rintro ⟨host, hhost, hletter⟩
    rw [hhost]
    exact ⟨_, rfl,
      fun hnil => isGap_iff.mpr hletter (normalized_eq_nil_iff.mp hnil)⟩

/-- **Headers are accepted** when each one is acceptable and there is one
host. -/
theorem canonicalHeaders_isOk :
    (∃ canonical, canonicalHeaders headers = .ok canonical) ↔
    (∀ header ∈ headers, Acceptable header) ∧ NamesHost headers := by
  rw [← @orderHeaders_isOk headers []]
  constructor
  · rintro ⟨canonical, h⟩
    obtain ⟨ordered, horder, hhost, -⟩ := canonicalHeaders_eq_ok.mp h
    exact ⟨⟨ordered, horder⟩, (valuesAt_host horder).mp hhost⟩
  · rintro ⟨⟨ordered, horder⟩, hhost⟩
    exact ⟨renderHeaders ordered,
      canonicalHeaders_eq_ok.mpr
        ⟨ordered, horder, (valuesAt_host horder).mpr hhost, rfl⟩⟩

theorem canonicalHeaders_block (h : canonicalHeaders headers = .ok canonical) :
    ∃ names, CanonicalBlock headers canonical names := by
  obtain ⟨ordered, horder, hne, hclean, rfl⟩ := canonicalHeaders_ok h
  obtain ⟨hascending, hnames, hordered⟩ := ordered_eq horder
  have hjoin : joinValues ordered =
      (ordered.map Prod.fst).map fun name =>
          (name, joinedValues headers name) := by
    conv_lhs => rw [hordered]
    rw [joinValues, List.map_map]
    rfl
  have hlines : (joinValues ordered).map headerLine =
      (ordered.map Prod.fst).map fun name =>
          headerLine (name, joinedValues headers name) := by
    rw [hjoin, List.map_map]
    rfl
  have htoken : ∀ name ∈ ordered.map Prod.fst, ∀ c ∈ name, isHeaderTokenChar c =
      true := by
    intro name hname
    obtain ⟨entry, hentry, rfl⟩ := List.mem_map.mp hname
    exact (hclean entry hentry).2.1
  refine ⟨ordered.map Prod.fst, hnames, ?_, rfl, ?_, ?_, ?_⟩
  · refine hascending.imp_of_mem fun hm hn hlt => ?_
    exact (Lib.octets_lt
      (fun c hc => ascii_of_isHeaderTokenChar (htoken _ hm c hc))
      fun c hc => ascii_of_isHeaderTokenChar (htoken _ hn c hc)).mpr hlt
  · rw [renderHeaders, hlines]
  · refine List.splitOn_intercalate ';' ?_ (by simpa using hne)
    intro name hname hmem
    exact absurd (htoken name hname ';' hmem) (by decide)
  · have hline : ∀ line ∈ (joinValues ordered).map headerLine, '\n' ∉ line := by
      intro line hline
      obtain ⟨pair, hpair, rfl⟩ := List.mem_map.mp hline
      obtain ⟨entry, hentry, rfl⟩ := List.mem_map.mp hpair
      exact (headerLine_clean (hclean entry hentry)).2
    rw [readHeaderBlock, renderHeaders, Lib.splitOn_block hline,
      List.dropLast_concat, ← hjoin]
    refine Lib.mapM_some ?_
    rw [List.forall₂_map_left_iff]
    refine List.forall₂_same.mpr fun pair hpair => ?_
    refine Lib.splitOnce_append pair.2 fun hmem => ?_
    rw [hjoin] at hpair
    obtain ⟨name, hname, rfl⟩ := List.mem_map.mp hpair
    exact absurd (htoken name hname ':' hmem) (by decide)

/-! ## What does not change the block -/

theorem isHeaderTokenChar_lower (c : Char) :
    isHeaderTokenChar c.toLower = isHeaderTokenChar c := by
  by_cases hascii : c.toNat ≤ 127
  · exact Lib.forall_ascii
      (P := fun c => isHeaderTokenChar c.toLower = isHeaderTokenChar c)
      (by decide +kernel) hascii
  · have hself : c.toLower = c := by
      rw [Char.toLower, dif_neg]
      rintro ⟨-, hz⟩
      have hn : c.toNat ≤ 'Z'.toNat := hz
      have hz : 'Z'.toNat = 90 := rfl
      omega
    rw [hself]

theorem validHeaderName_lower (name : Str) :
    validHeaderName (toAsciiLowercase name) = validHeaderName name := by
  have hcomp : isHeaderTokenChar ∘ Char.toLower = isHeaderTokenChar :=
    funext isHeaderTokenChar_lower
  simp [validHeaderName, toAsciiLowercase, hcomp]

/-- The first loop sees of a header its lowercase name and its normalised
value. -/
theorem orderHeaders_respelled (h : List.Forall₂ Respelled headers headers') :
    ∀ ordered, orderHeaders headers ordered =
      orderHeaders headers' ordered := by
  induction h with
  | nil => exact fun _ => rfl
  | @cons header header' _ _ hhead _ ih =>
      intro ordered
      have hvalid :
          validHeaderName header.name = validHeaderName header'.name := by
        rw [← validHeaderName_lower, hhead.name, validHeaderName_lower]
      rw [orderHeaders, orderHeaders, hvalid, hhead.name,
        normalizeHeaderValue_respaced hhead.value]
      simp only [ih]

theorem Reordered.mem {header : Header} (h : Reordered headers headers')
    (hmem : header ∈ headers') :
    header ∈ headers := by
  have hnamed : header ∈ namedHeaders headers' (toAsciiLowercase header.name) :=
    List.mem_filter.mpr ⟨hmem, BEq.rfl⟩
  rw [← h] at hnamed
  exact List.mem_of_mem_filter hnamed

theorem ascending_ext {names names' : List Str} (h : names.Pairwise (· < ·))
    (h' : names'.Pairwise (· < ·))
    (hmem : ∀ name, name ∈ names ↔ name ∈ names') : names = names' := by
  have hperm : names.Perm names' :=
    (List.perm_ext_iff_of_nodup (h.imp ne_of_lt) (h'.imp ne_of_lt)).mpr hmem
  exact hperm.eq_of_pairwise
    (fun _ _ _ _ hlt hgt => absurd hgt (lt_asymm hlt)) h h'

theorem orderHeaders_reordered (h : Reordered headers headers')
    (horder : orderHeaders headers [] = .ok ordered) :
    orderHeaders headers' [] = .ok ordered := by
  have haccept := orderHeaders_isOk.mp ⟨ordered, horder⟩
  obtain ⟨ordered', horder'⟩ :
      ∃ ordered', orderHeaders headers' [] = .ok ordered' :=
    orderHeaders_isOk.mpr fun header hmem => haccept header (h.mem hmem)
  obtain ⟨hascending, hnames, hmap⟩ := ordered_eq horder
  obtain ⟨hascending', hnames', hmap'⟩ := ordered_eq horder'
  have hsame : ordered.map Prod.fst = ordered'.map Prod.fst := by
    refine ascending_ext hascending hascending' fun name => ?_
    rw [hnames, hnames']
    constructor
    · rintro ⟨header, hmem, hname⟩
      exact ⟨header, Reordered.mem (fun name => (h name).symm) hmem, hname⟩
    · rintro ⟨header, hmem, hname⟩
      exact ⟨header, h.mem hmem, hname⟩
  have hvalues :
    ∀ name, namedHeaders headers name = namedHeaders headers' name := h
  rw [horder', hmap', ← hsame]
  conv_rhs => rw [hmap]
  simp only [hvalues]

/-- **The canonical headers**: when they are accepted, what they are rendered to
and how that is read back, what normalisation does to a value, and what leaves
them unchanged. -/
theorem canonicalHeaders_spec :
    (∀ headers, (∃ canonical, canonicalHeaders headers = .ok canonical) ↔
      (∀ header ∈ headers, Acceptable header) ∧ NamesHost headers) ∧
    (∀ headers canonical, canonicalHeaders headers = .ok canonical →
      ∃ names, CanonicalBlock headers canonical names) ∧
    (∀ value text, normalizeHeaderValue value = .ok text →
      text = [' '].intercalate (Lib.words isBlank value) ∧ '\t' ∉ text ∧
      Lib.Spaced ' ' text ∧
        normalizeHeaderValue text = .ok text) ∧
    (∀ headers headers', List.Forall₂ Respelled headers headers' →
      canonicalHeaders headers' = canonicalHeaders headers) ∧
    ∀ headers headers' canonical, Reordered headers headers' →
    canonicalHeaders headers = .ok canonical →
      canonicalHeaders headers' = .ok canonical := by
  refine ⟨fun _ => canonicalHeaders_isOk, fun _ _ => canonicalHeaders_block, ?_,
    ?_, ?_⟩
  · intro value text h
    rw [normalizeHeaderValue_eq] at h
    split at h
    · cases h
    · next hclean =>
        cases h
        refine ⟨rfl, tab_not_mem_normalized value, spaced_normalized value, ?_⟩
        have hclean' : ¬(normalized value).any isForbiddenControl = true := by
          intro hany
          obtain ⟨c, hc, hcontrol⟩ := List.any_eq_true.mp hany
          rcases Lib.mem_intercalate hc with rfl | ⟨word, hword, hc⟩
          · exact absurd hcontrol (by decide)
          · exact hclean
              (List.any_eq_true.mpr
                ⟨c, Lib.mem_of_mem_words hword hc, hcontrol⟩)
        rw [normalizeHeaderValue_eq, if_neg hclean', normalized_idempotent]
  · intro headers headers' h
    rw [canonicalHeaders, canonicalHeaders, orderHeaders_respelled h]
  · intro headers headers' canonical h hok
    obtain ⟨ordered, horder, hhost, rfl⟩ := canonicalHeaders_eq_ok.mp hok
    exact canonicalHeaders_eq_ok.mpr
      ⟨ordered, orderHeaders_reordered h horder, hhost, rfl⟩

/-- A host in mixed case between two values of one name. -/
theorem canonicalHeaders_spec_repeated : ∃ names, CanonicalBlock
    [⟨"X-Tag", " b \t c"⟩, ⟨"HoSt", "s3.test"⟩, ⟨"x-tag", "a"⟩]
    ⟨"host:s3.test\nx-tag:b c,a\n", "host;x-tag"⟩ names :=
  canonicalHeaders_spec.2.1 _ _ (by decide)

end Accepted

end S3Wire
