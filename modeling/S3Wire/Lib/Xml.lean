/-
# `Lib.Xml` — reading XML 1.0 documents made of elements and text

The reader of a document with one root element, whose elements carry no
attributes and which has no prolog, comments, processing instructions or CDATA
sections; a reader of the whole of XML 1.0 agrees with this one on such
documents.  What it enforces is the standard's: every character matches the
production `Char`, an end of line is normalised before anything else is looked
at, names match `Name`, tags are balanced, a reference is one of the predefined
entities or a character reference, and `]]>` does not stand in character data.

The reader takes one character at a time.  `Reads s nodes` says that reading `s`
inside an element adds `nodes` to its content; it composes (`Reads.append`,
`Reads.element`), and so what a document reads as follows the way it was written
(`read_tagged`).
-/
import S3Wire.Lib.Percent

namespace Lib.Xml

/-! ## Characters -/

def inRanges (ranges : List (Nat × Nat)) (c : Char) : Bool :=
  ranges.any fun (low, high) => low ≤ c.toNat && c.toNat ≤ high

/-- `Char`: what may stand in a document at all. -/
def isChar : Char → Bool :=
  inRanges
    [(0x9, 0xA), (0xD, 0xD), (0x20, 0xD7FF), (0xE000, 0xFFFD),
      (0x10000, 0x10FFFF)]

/-- `S`. -/
def isSpace (c : Char) : Bool := c = ' ' || c = '\t' || c = '\r' || c = '\n'

def nameStartRanges : List (Nat × Nat) :=
  [(0x3A, 0x3A), (0x41, 0x5A), (0x5F, 0x5F), (0x61, 0x7A), (0xC0, 0xD6),
    (0xD8, 0xF6), (0xF8, 0x2FF),
    (0x370, 0x37D), (0x37F, 0x1FFF), (0x200C, 0x200D), (0x2070, 0x218F),
      (0x2C00, 0x2FEF),
    (0x3001, 0xD7FF), (0xF900, 0xFDCF), (0xFDF0, 0xFFFD), (0x10000, 0xEFFFF)]

/-- `NameChar`. -/
def isNameChar : Char → Bool :=
  inRanges (nameStartRanges ++
    [(0x2D, 0x2E), (0x30, 0x39), (0xB7, 0xB7), (0x300, 0x36F),
      (0x203F, 0x2040)])

/-- `Name`. -/
def isName (name : List Char) : Bool :=
  name.head?.any (inRanges nameStartRanges) && name.all isNameChar

theorem ne_nil_of_isName {name : List Char} (h : isName name = true) :
    name ≠ [] := by
  rintro rfl
  cases h

theorem isChar_of_isNameChar {c : Char} (h : isNameChar c = true) :
    isChar c = true := by
  simp only [isNameChar, isChar, inRanges, nameStartRanges, List.cons_append,
    List.nil_append,
    List.any_cons, List.any_nil, Bool.or_eq_true, Bool.and_eq_true,
      decide_eq_true_eq, Bool.or_false] at h ⊢
  omega

theorem isNameChar_of_mem {name : List Char} (h : isName name = true) {c : Char}
    (hc : c ∈ name) :
    isNameChar c = true := by
  rw [isName, Bool.and_eq_true, List.all_eq_true] at h
  exact h.2 c hc

/-! ## Ends of lines -/

/-- CR LF and CR become LF; `afterCr` says that a CR was just read. -/
def normalizeFrom (afterCr : Bool) : List Char → List Char
  | [] => []
  | c :: rest =>
      if c = '\r' then '\n' :: normalizeFrom true rest
      else if c = '\n' ∧ afterCr then normalizeFrom false rest
      else c :: normalizeFrom false rest

/-- The text after the normalisation of line ends. -/
def normalizeEol (s : List Char) : List Char := normalizeFrom false s

theorem normalizeEol_of_not_mem {s : List Char} (h : '\r' ∉ s) :
    normalizeEol s = s := by
  rw [normalizeEol]
  induction s with
  | nil => rfl
  | cons c s ih =>
      have hc : c ≠ '\r' := fun he => h (he ▸ List.mem_cons_self ..)
      rw [normalizeFrom, if_neg hc, if_neg fun h => Bool.false_ne_true h.2,
        ih fun hs => h (List.mem_cons_of_mem _ hs)]

/-! ## Trees -/

/-- Content: characters, one by one, and elements. -/
inductive Node where
  | char (c : Char)
  | element (name : List Char) (content : List Node)

/-- The characters of a content. -/
def textOf (content : List Node) : List Char :=
  content.filterMap fun
    | .char c => some c
    | .element _ _ => none

@[simp] theorem textOf_chars (s : List Char) : textOf (s.map .char) = s := by
  induction s with
  | nil => rfl
  | cons c s ih => exact congrArg (c :: ·) ih

/-! ## The reader -/

/-- A number written in `base`, of at least one digit. -/
def readNumber (base : Nat) (digits : List Char) : Option Nat :=
  if digits.isEmpty then none
  else digits.foldlM (fun n c => (hexValue c).bind fun d =>
    if d < base then some (base * n + d) else none) 0

/-- What stands between `&` and `;`: a predefined entity, or a character by its
number. -/
def reference (name : List Char) : Option Char :=
  if name = "amp".toList then some '&'
  else if name = "lt".toList then some '<'
  else if name = "gt".toList then some '>'
  else if name = "apos".toList then some '\''
  else if name = "quot".toList then some '"'
  else
    let number := match name with
      | '#' :: 'x' :: digits => readNumber 16 digits
      | '#' :: digits => readNumber 10 digits
      | _ => none
    number.bind fun n =>
      if (Char.ofNat n).toNat = n ∧ isChar (Char.ofNat n) then
        some (Char.ofNat n) else none

/-- An open element. -/
structure Frame where
  name : List Char
  content : List Node

/-- Where the next character stands: in content, after so many `]`; in a tag, or
in a reference, after these characters of it. -/
inductive Mode where
  | content (brackets : Nat)
  | tag (raw : List Char)
  | reference (raw : List Char)

/-- The reader between two characters: its open elements, the innermost first,
and the root element once it is complete. -/
structure Reader where
  mode : Mode
  frames : List Frame
  root : Option Node

namespace Reader

def start : Reader := ⟨.content 0, [], none⟩

/-- A complete node. -/
def push (r : Reader) (node : Node) : Reader :=
  match r.frames with
  | [] => { r with root := some node }
  | frame :: outer =>
      { r with frames :=
        { frame with content := frame.content ++ [node] } :: outer }

/-- A second root element is refused. -/
def full (r : Reader) : Bool := r.frames.isEmpty && r.root.isSome

/-- A start tag: the element is open. -/
def openTag (r : Reader) (name : List Char) : Option Reader :=
  if isName name && !r.full then
    some { r with mode := .content 0, frames := ⟨name, []⟩ :: r.frames }
  else none

def emptyTag (r : Reader) (name : List Char) : Option Reader :=
  if isName name && !r.full then
    some ({ r with mode := .content 0 }.push (.element name []))
  else none

/-- An end tag: it is the innermost open element that ends. -/
def closeTag (r : Reader) (name : List Char) : Option Reader :=
  match r.frames with
  | [] => none
  | frame :: outer =>
      if frame.name = name then
        some ({ r with mode := .content 0, frames := outer }.push
          (.element frame.name frame.content))
      else none

def trimEnd (s : List Char) : List Char := s.rdropWhile isSpace

/-- A tag, without its angle brackets. -/
def takeTag (r : Reader) (raw : List Char) : Option Reader :=
  if raw.head? = some '/' then r.closeTag (trimEnd raw.tail)
  else if raw.getLast? = some '/' then r.emptyTag (trimEnd raw.dropLast)
  else r.openTag (trimEnd raw)

/-- One character of a document. -/
def step (r : Reader) (c : Char) : Option Reader :=
  match r.mode with
  | .tag raw =>
      if c = '>' then r.takeTag raw
      else some { r with mode := .tag (raw ++ [c]) }
  | .reference raw =>
      if c = ';' then
        (reference raw).map fun d =>
          { r with mode := .content 0 }.push (.char d)
      else some { r with mode := .reference (raw ++ [c]) }
  | .content brackets =>
      if c = '<' then some { r with mode := .tag [] }
      else if r.frames.isEmpty then if isSpace c then some r else none
      else if c = '&' then some { r with mode := .reference [] }
      else if c = '>' ∧ 2 ≤ brackets then none
      else some
        ({ r with mode := .content (if c = ']' then brackets + 1 else 0) }.push
          (.char c))

/-- All characters of a document. -/
def run : List Char → Reader → Option Reader
  | [], r => some r
  | c :: rest, r => (r.step c).bind (run rest)

/-- The document, at its end. -/
def finish (r : Reader) : Option Node :=
  match r.mode, r.frames with
  | .content _, [] => r.root
  | _, _ => none

end Reader

/-- The root element of a document. -/
def read (text : List Char) : Option Node :=
  if text.all isChar then
    (Reader.run (normalizeEol text) Reader.start).bind Reader.finish else none

/-! ## Reading what was written -/

namespace Reader

theorem run_append (s t : List Char) (r : Reader) :
    run (s ++ t) r = (run s r).bind (run t) := by
  induction s generalizing r with
  | nil => rfl
  | cons c s ih =>
      rw [List.cons_append, run, run, Option.bind_assoc]
      congr 1
      funext r'
      exact ih r'

theorem run_tag {s : List Char} (hs : '>' ∉ s) (rest raw : List Char)
    (frames : List Frame) (root : Option Node) :
    run (s ++ '>' :: rest) ⟨.tag raw, frames, root⟩ =
      (takeTag ⟨.tag (raw ++ s), frames, root⟩ (raw ++ s)).bind (run rest) := by
  induction s generalizing raw with
  | nil =>
      have hstep :
          step ⟨.tag raw, frames, root⟩ '>' =
              takeTag ⟨.tag raw, frames, root⟩ raw := by
        rw [step]
        exact if_pos rfl
      rw [List.nil_append, List.append_nil, run, hstep]
  | cons c s ih =>
      have hc : c ≠ '>' := fun he => hs (he ▸ List.mem_cons_self ..)
      have hstep :
        step ⟨.tag raw, frames, root⟩ c =
          some ⟨.tag (raw ++ [c]), frames, root⟩ := if_neg hc
      rw [List.cons_append, run, hstep, Option.bind_some,
        ih (fun h => hs (List.mem_cons_of_mem _ h)), List.append_assoc,
          List.singleton_append]

theorem run_reference {s : List Char} (hs : ';' ∉ s) {d : Char}
    (raw : List Char) (frames : List Frame) (root : Option Node)
    (hd : reference (raw ++ s) = some d) :
    run (s ++ [';']) ⟨.reference raw, frames, root⟩ =
      some (push ⟨.content 0, frames, root⟩ (.char d)) := by
  induction s generalizing raw with
  | nil =>
      rw [List.append_nil] at hd
      have hstep : step ⟨.reference raw, frames, root⟩ ';' =
          some (push ⟨.content 0, frames, root⟩ (.char d)) := by
        rw [step]
        simp only [if_pos, hd, Option.map_some]
      rw [List.nil_append, run, hstep]
      rfl
  | cons c s ih =>
      have hc : c ≠ ';' := fun he => hs (he ▸ List.mem_cons_self ..)
      have hstep : step ⟨.reference raw, frames, root⟩ c =
          some ⟨.reference (raw ++ [c]), frames, root⟩ := if_neg hc
      rw [List.cons_append, run, hstep, Option.bind_some]
      refine ih (fun h => hs (List.mem_cons_of_mem _ h)) (raw ++ [c]) ?_
      rw [List.append_assoc, List.singleton_append]
      exact hd

end Reader

open Reader

/-- Reading `s` inside an element adds `nodes` to its content. -/
def Reads (s : List Char) (nodes : List Node) : Prop :=
  ∀ n name content outer root, ∃ n',
    run s ⟨.content n, ⟨name, content⟩ :: outer, root⟩ =
      some ⟨.content n', ⟨name, content ++ nodes⟩ :: outer, root⟩

theorem Reads.nil : Reads [] [] := by
  intro n name content outer root
  exact ⟨n, by rw [List.append_nil]; rfl⟩

theorem Reads.append {s t : List Char} {xs ys : List Node} (hs : Reads s xs)
    (ht : Reads t ys) :
    Reads (s ++ t) (xs ++ ys) := by
  intro n name content outer root
  obtain ⟨n₁, h₁⟩ := hs n name content outer root
  obtain ⟨n₂, h₂⟩ := ht n₁ name (content ++ xs) outer root
  refine ⟨n₂, ?_⟩
  rw [run_append, h₁, Option.bind_some, h₂, List.append_assoc]

theorem Reads.verbatim {c : Char} (hlt : c ≠ '<') (hamp : c ≠ '&')
    (hgt : c ≠ '>') :
    Reads [c] [.char c] := by
  intro n name content outer root
  refine ⟨if c = ']' then n + 1 else 0, ?_⟩
  rw [run, step]
  simp only [if_neg hlt, if_neg hamp, if_neg fun h : c = '>' ∧ 2 ≤ n => hgt h.1]
  rfl

theorem Reads.reference {raw : List Char} {d : Char} (hraw : ';' ∉ raw)
    (hd : Xml.reference raw = some d) :
    Reads ('&' :: raw ++ [';']) [.char d] := by
  intro n name content outer root
  have hstep : step ⟨.content n, ⟨name, content⟩ :: outer, root⟩ '&' =
      some ⟨.reference [], ⟨name, content⟩ :: outer, root⟩ := rfl
  refine ⟨0, ?_⟩
  rw [List.cons_append, run, hstep, Option.bind_some,
    run_reference hraw [] _ _ hd]
  rfl

theorem Reads.flatMap {escape : Char → List Char}
    (h : ∀ c, Reads (escape c) [.char c]) :
    ∀ s : List Char, Reads (s.flatMap escape) (s.map .char)
  | [] => Reads.nil
  | c :: s => by
      rw [List.flatMap_cons, List.map_cons, ← List.singleton_append]
      exact (h c).append (Reads.flatMap h s)

theorem Reads.flatten {α : Type} {write : α → List Char} {node : α → List Node}
    (h : ∀ x, Reads (write x) (node x)) :
    ∀ xs : List α, Reads (xs.flatMap write) (xs.flatMap node)
  | [] => Reads.nil
  | x :: xs => by
      rw [List.flatMap_cons, List.flatMap_cons]
      exact (h x).append (Reads.flatten h xs)

section Tags

variable {name : List Char}

theorem trimEnd_of_isName (h : isName name = true) : trimEnd name = name := by
  rw [trimEnd, List.rdropWhile_eq_self_iff]
  intro hne hspace
  have hlast := isNameChar_of_mem h (List.getLast_mem hne)
  rw [isSpace, Bool.or_eq_true, Bool.or_eq_true, Bool.or_eq_true,
    decide_eq_true_eq, decide_eq_true_eq,
    decide_eq_true_eq, decide_eq_true_eq] at hspace
  rcases hspace with ((hspace | hspace) | hspace) | hspace <;>
    · rw [hspace] at hlast
      exact absurd hlast (by decide)

theorem not_mem_of_isName (h : isName name = true) {c : Char}
    (hc : isNameChar c = false) : c ∉ name := by
  intro hmem
  rw [isNameChar_of_mem h hmem] at hc
  cases hc

theorem slash_not_mem (h : isName name = true) : '/' ∉ name :=
  not_mem_of_isName h (by decide)

theorem takeTag_name (h : isName name = true) (r : Reader) :
    r.takeTag name = r.openTag name := by
  have hhead : name.head? ≠ some '/' :=
    fun he => slash_not_mem h (List.mem_of_head? he)
  have hlast : name.getLast? ≠ some '/' :=
    fun he => slash_not_mem h (List.mem_of_getLast? he)
  rw [takeTag, if_neg hhead, if_neg hlast, trimEnd_of_isName h]

theorem takeTag_close (h : isName name = true) (r : Reader) :
    r.takeTag ('/' :: name) = r.closeTag name := by
  rw [takeTag, if_pos List.head?_cons, List.tail_cons, trimEnd_of_isName h]

theorem takeTag_empty (h : isName name = true) (r : Reader) :
    r.takeTag (name ++ ['/']) = r.emptyTag name := by
  have hhead : (name ++ ['/']).head? ≠ some '/' := by
    rw [List.head?_append_of_ne_nil _ (ne_nil_of_isName h)]
    exact fun he => slash_not_mem h (List.mem_of_head? he)
  rw [takeTag, if_neg hhead, if_pos List.getLast?_concat, List.dropLast_concat,
    trimEnd_of_isName h]

theorem run_start (h : isName name = true) (n : Nat) (frames : List Frame)
    (root : Option Node) (hroom : full ⟨.tag name, frames, root⟩ = false)
    (rest : List Char) :
    run ('<' :: (name ++ '>' :: rest)) ⟨.content n, frames, root⟩ =
      run rest ⟨.content 0, ⟨name, []⟩ :: frames, root⟩ := by
  have hstep :
    step ⟨.content n, frames, root⟩ '<' = some ⟨.tag [], frames, root⟩ := rfl
  rw [run, hstep, Option.bind_some, run_tag (not_mem_of_isName h (by decide)),
    List.nil_append,
    takeTag_name h, openTag, h, full]
  rw [full] at hroom
  rw [hroom]
  rfl

theorem run_end (h : isName name = true) (n : Nat) (content : List Node)
    (frames : List Frame) (root : Option Node) (rest : List Char) :
    run ('<' :: '/' :: (name ++ '>' :: rest))
      ⟨.content n, ⟨name, content⟩ :: frames, root⟩ =
      run rest (push ⟨.content 0, frames, root⟩ (.element name content)) := by
  have hstep : step ⟨.content n, ⟨name, content⟩ :: frames, root⟩ '<' =
      some ⟨.tag [], ⟨name, content⟩ :: frames, root⟩ := rfl
  have hslash : '>' ∉ '/' :: name := by
    intro hmem
    rcases List.mem_cons.mp hmem with hmem | hmem
    · cases hmem
    · exact not_mem_of_isName h (c := '>') (by decide) hmem
  rw [run, hstep, Option.bind_some, ← List.cons_append, run_tag hslash,
    List.nil_append, takeTag_close h,
    closeTag]
  dsimp only
  rw [if_pos rfl]
  rfl

/-- The element of this name around `s`. -/
def tagged (name s : List Char) : List Char :=
  '<' :: (name ++ '>' :: (s ++ '<' :: '/' :: (name ++ ['>'])))

theorem Reads.element (h : isName name = true) {s : List Char}
    {nodes : List Node} (hs : Reads s nodes) :
    Reads (tagged name s) [.element name nodes] := by
  intro n parent content outer root
  obtain ⟨n', hcontent⟩ := hs 0 name [] (⟨parent, content⟩ :: outer) root
  refine ⟨0, ?_⟩
  rw [tagged, run_start h _ _ _ rfl, run_append, hcontent, Option.bind_some,
    List.nil_append]
  exact run_end h n' nodes (⟨parent, content⟩ :: outer) root []

theorem Reads.empty (h : isName name = true) :
    Reads ('<' :: (name ++ ['/', '>'])) [.element name []] := by
  intro n parent content outer root
  have hstep : step ⟨.content n, ⟨parent, content⟩ :: outer, root⟩ '<' =
      some ⟨.tag [], ⟨parent, content⟩ :: outer, root⟩ := rfl
  have hslash : '>' ∉ name ++ ['/'] := by
    intro hmem
    rcases List.mem_append.mp hmem with hmem | hmem
    · exact not_mem_of_isName h (c := '>') (by decide) hmem
    · cases List.mem_singleton.mp hmem
  refine ⟨0, ?_⟩
  have hsplit : name ++ ['/', '>'] = (name ++ ['/']) ++ '>' :: [] := by
    rw [List.append_assoc]
    rfl
  rw [run, hstep, Option.bind_some, hsplit, run_tag hslash, List.nil_append,
    takeTag_empty h, emptyTag, h]
  rfl

/-- **A document reads as it was written**, when its content holds no carriage
return and reads as `nodes` inside the root: the root with `nodes`, if all of it
matches `Char`. -/
theorem read_tagged (h : isName name = true) {s : List Char} {nodes : List Node}
    (hcr : '\r' ∉ tagged name s) (hs : Reads s nodes) :
    read (tagged name s) =
      if (tagged name s).all isChar then some (.element name nodes)
        else none := by
  obtain ⟨n', hcontent⟩ := hs 0 name [] [] none
  have hrun :
      run (tagged name s) start =
          some ⟨.content 0, [], some (.element name nodes)⟩ := by
    rw [start, tagged, run_start h _ _ _ rfl, run_append, hcontent,
      Option.bind_some, List.nil_append]
    exact run_end h n' nodes [] none []
  rw [read, normalizeEol_of_not_mem hcr, hrun]
  rfl

end Tags

end Lib.Xml
