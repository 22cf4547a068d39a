/-
# `Lib.Text` — separators, and why a joined text can be taken apart again

Everything here is about lists over an arbitrary alphabet and one letter of it,
the separator.  A field that does not contain the separator can be read back
from in front of it (`splitOnce_append`), two texts that agree agree field by
field (`append_cons_inj`), and a block of non-empty lines closed by an empty
line determines its lines (`block_inj`).  `List.splitOn` and
`List.intercalate` are core's; only their injectivity on separator-free fields
is added.

The last two sections are UTF-8: `utf8` is core's encoder on a list of
characters, `utf8Decode` core's decoder, and they are inverse on what the
encoder emits; texts are compared by their octets, which for ASCII is the order
of the characters (`octets_le`).
-/
import Mathlib

namespace Lib

/-! ## Cutting at the first separator -/

section Cut

variable {α : Type*} [DecidableEq α]

/-- What stands before and after the first `x`; `none` when there is none. -/
def splitOnce (x : α) : List α → Option (List α × List α)
  | [] => none
  | a :: l =>
      if a = x then some ([], l)
      else (splitOnce x l).map fun (p, q) => (a :: p, q)

theorem splitOnce_append {x : α} : ∀ {p : List α} (q : List α), x ∉ p →
    splitOnce x (p ++ x :: q) = some (p, q)
  | [], q, _ => by simp [splitOnce]
  | a :: p, q, h => by
      have ha : a ≠ x := fun he => h (by simp [he])
      have hp : x ∉ p := fun hx => h (List.mem_cons_of_mem _ hx)
      simp [splitOnce, ha, splitOnce_append q hp]

theorem splitOnce_eq_none {x : α} : ∀ {l : List α}, x ∉ l → splitOnce x l = none
  | [], _ => rfl
  | a :: l, h => by
      have ha : a ≠ x := fun he => h (by simp [he])
      have hl : x ∉ l := fun hx => h (List.mem_cons_of_mem _ hx)
      simp [splitOnce, ha, splitOnce_eq_none hl]

theorem splitOnce_eq_some {x : α} :
    ∀ {l p q : List α}, splitOnce x l = some (p, q) →
    l = p ++ x :: q ∧ x ∉ p
  | [], p, q, h => nomatch h
  | a :: l, p, q, h => by
      by_cases ha : a = x
      · simp only [splitOnce, ha, if_true, Option.some.injEq, Prod.mk.injEq]
          at h
        obtain ⟨rfl, rfl⟩ := h
        simp [ha]
      · simp only [splitOnce, ha, if_false, Option.map_eq_some_iff] at h
        obtain ⟨⟨p', q'⟩, hl, he⟩ := h
        obtain ⟨rfl, hp⟩ := splitOnce_eq_some hl
        obtain ⟨rfl, rfl⟩ := Prod.mk.inj he
        exact ⟨rfl, by simp [hp, Ne.symm ha]⟩

/-- The part before the first `x`, all of it when there is none. -/
def beforeFirst (x : α) (l : List α) : List α :=
  match splitOnce x l with
  | some (p, _) => p
  | none => l

theorem beforeFirst_append {x : α} {p : List α} (q : List α) (h : x ∉ p) :
    beforeFirst x (p ++ x :: q) = p := by
  simp [beforeFirst, splitOnce_append q h]

theorem beforeFirst_of_not_mem {x : α} {l : List α} (h : x ∉ l) :
    beforeFirst x l = l := by
  simp [beforeFirst, splitOnce_eq_none h]

theorem not_mem_beforeFirst (x : α) (l : List α) : x ∉ beforeFirst x l := by
  unfold beforeFirst
  split
  next p q h => exact (splitOnce_eq_some h).2
  next h =>
      intro hx
      obtain ⟨p, q, rfl, hp⟩ := List.eq_append_cons_of_mem hx
      rw [splitOnce_append q hp] at h
      cases h

theorem append_cons_inj {x : α} {a a' b b' : List α} (ha : x ∉ a) (ha' : x ∉ a')
    (h : a ++ x :: b = a' ++ x :: b') : a = a' ∧ b = b' := by
  have hs := congrArg (splitOnce x) h
  rw [splitOnce_append b ha, splitOnce_append b' ha'] at hs
  simpa using hs

end Cut

/-! ## Blocks of lines and joined fields -/

section Blocks

variable {α : Type*}

/-- A block: every line closed by the separator. -/
def block (x : α) (lines : List (List α)) : List α :=
  (lines.map (· ++ [x])).flatten

@[simp] theorem block_nil (x : α) : block x [] = [] := rfl

@[simp] theorem block_cons (x : α) (l : List α) (ls : List (List α)) :
    block x (l :: ls) = l ++ x :: block x ls := by
  simp [block]

/-- A block of non-empty lines, closed by an empty line, determines its lines
and what follows. -/
theorem block_inj [DecidableEq α] {x : α} :
    ∀ {ls ls' : List (List α)} {r r' : List α},
    (∀ l ∈ ls, l ≠ [] ∧ x ∉ l) → (∀ l ∈ ls', l ≠ [] ∧ x ∉ l) →
    block x ls ++ x :: r = block x ls' ++ x :: r' → ls = ls' ∧ r = r'
  | [], [], r, r', _, _, h => by
      simpa using h
  | [], l' :: ls', r, r', _, h', h => by
      -- an empty line on the left against a non-empty one on the right
      exfalso
      obtain ⟨hne, hx⟩ := h' l' (by simp)
      obtain ⟨c, l'', rfl⟩ := List.exists_cons_of_ne_nil hne
      simp only [block_nil, List.nil_append, block_cons, List.cons_append,
        List.cons.injEq] at h
      exact hx (by simp [h.1])
  | l :: ls, [], r, r', h₁, _, h => by
      exfalso
      obtain ⟨hne, hx⟩ := h₁ l (by simp)
      obtain ⟨c, l'', rfl⟩ := List.exists_cons_of_ne_nil hne
      simp only [block_nil, List.nil_append, block_cons, List.cons_append,
        List.cons.injEq] at h
      exact hx (by simp [h.1])
  | l :: ls, l' :: ls', r, r', h₁, h', h => by
      simp only [block_cons, List.append_assoc, List.cons_append] at h
      obtain ⟨rfl, hrest⟩ :=
        append_cons_inj (h₁ l (by simp)).2 (h' l' (by simp)).2 h
      obtain ⟨rfl, rfl⟩ :=
        block_inj (fun m hm => h₁ m (List.mem_cons_of_mem _ hm))
        (fun m hm => h' m (List.mem_cons_of_mem _ hm)) hrest
      exact ⟨rfl, rfl⟩

theorem splitOn_block [DecidableEq α] {x : α} :
    ∀ {ls : List (List α)}, (∀ l ∈ ls, x ∉ l) →
    (block x ls).splitOn x = ls ++ [[]]
  | [], _ => by
      rw [block_nil, List.splitOn_eq_splitOnP, List.splitOnP_nil]
      rfl
  | l :: ls, h => by
      obtain ⟨hl, hls⟩ := List.forall_mem_cons.mp h
      have hplain : ∀ c ∈ l, (c == x) = false := by
        intro c hc
        rw [beq_eq_false_iff_ne]
        rintro rfl
        exact hl hc
      have ih := splitOn_block hls
      rw [List.splitOn_eq_splitOnP] at ih ⊢
      rw [block_cons, List.splitOnP_append_cons_of_forall_mem hplain x BEq.rfl,
        ih, List.cons_append]

/-- A map that is injective on the elements of two lists is injective on the
lists. -/
theorem map_inj_of_forall {β : Type*} {f : α → β} {p : α → Prop}
    (hf : ∀ {a b}, p a → p b → f a = f b → a = b) :
    ∀ {l l' : List α}, (∀ a ∈ l, p a) →
      (∀ a ∈ l', p a) → l.map f = l'.map f → l = l'
  | [], [], _, _, _ => rfl
  | [], _ :: _, _, _, h => nomatch h
  | _ :: _, [], _, _, h => nomatch h
  | a :: l, a' :: l', hl, hl', h => by
      simp only [List.map_cons, List.cons.injEq] at h
      rw [hf (hl a (by simp)) (hl' a' (by simp)) h.1,
        map_inj_of_forall hf (fun x hx => hl x (by simp [hx]))
          (fun x hx => hl' x (by simp [hx])) h.2]

/-- Joining separator-free fields is injective on non-empty lists of fields. -/
theorem intercalate_inj [DecidableEq α] {x : α} {ls ls' : List (List α)}
    (hls : ls ≠ []) (hls' : ls' ≠ []) (h : ∀ l ∈ ls, x ∉ l)
    (h' : ∀ l ∈ ls', x ∉ l) (heq : [x].intercalate ls = [x].intercalate ls') :
    ls = ls' := by
  rw [← List.splitOn_intercalate x h hls, heq,
    List.splitOn_intercalate x h' hls']

theorem mem_intercalate {x c : α} :
    ∀ {ls : List (List α)}, c ∈ [x].intercalate ls →
    c = x ∨ ∃ l ∈ ls, c ∈ l
  | [], h => by simp at h
  | [l], h => Or.inr ⟨l, by simp, by simpa using h⟩
  | l :: l' :: ls, h => by
      rw [List.intercalate_cons_cons, List.mem_append, List.mem_append] at h
      rcases h with (h | h) | h
      · exact Or.inr ⟨l, by simp, h⟩
      · exact Or.inl (by simpa using h)
      · rcases mem_intercalate h with rfl | ⟨m, hm, hc⟩
        · exact Or.inl rfl
        · exact Or.inr ⟨m, List.mem_cons_of_mem _ hm, hc⟩

end Blocks

/-! ## A fixed head or tail -/

section Strip

variable {α : Type*} [DecidableEq α] {l p s : List α}

theorem dropPrefix?_eq_some : l.dropPrefix? p = some s ↔ l = p ++ s := by
  rw [List.dropPrefix?_eq_some_iff]
  constructor
  · rintro ⟨p', rfl, hp⟩
    rw [eq_of_beq hp]
  · rintro rfl
    exact ⟨p, rfl, BEq.rfl⟩

theorem dropSuffix?_eq_some : l.dropSuffix? s = some p ↔ l = p ++ s := by
  rw [List.dropSuffix?_eq_some_iff]
  constructor
  · rintro ⟨s', rfl, hs⟩
    rw [eq_of_beq hs]
  · rintro rfl
    exact ⟨s, rfl, BEq.rfl⟩

theorem dropPrefix?_cons_ne {a x : α} {t : List α} (h : a ≠ x) :
    (a :: l).dropPrefix? (x :: t) = none := by
  rw [Option.eq_none_iff_forall_not_mem]
  intro rest hrest
  exact h (List.cons.inj (dropPrefix?_eq_some.mp hrest)).1

/-- Split in front of the first occurrence of `p`, which is left out
(`str::split_once` with a text). -/
def splitOnceAt (p : List α) : List α → Option (List α × List α)
  | [] => if p = [] then some ([], []) else none
  | a :: l =>
      match (a :: l).dropPrefix? p with
      | some rest => some ([], rest)
      | none =>
          (splitOnceAt p l).map fun (before, after) => (a :: before, after)

/-- Where the first element of `p` does not occur before, the first occurrence
is there. -/
theorem splitOnceAt_append {x : α} {t : List α} (q : List α) :
    ∀ {before : List α}, x ∉ before →
    splitOnceAt (x :: t) (before ++ (x :: t ++ q)) = some (before, q)
  | [], _ => by
      rw [List.nil_append, List.cons_append, splitOnceAt]
      have hleading : (x :: (t ++ q)).dropPrefix? (x :: t) = some q :=
        dropPrefix?_eq_some.mpr rfl
      rw [hleading]
  | a :: before, h => by
      rw [List.mem_cons, not_or] at h
      rw [List.cons_append, splitOnceAt, dropPrefix?_cons_ne (Ne.symm h.1),
        splitOnceAt_append q h.2]
      rfl

theorem splitOnceAt_eq_none {x : α} {t : List α} : ∀ {l : List α}, x ∉ l →
    splitOnceAt (x :: t) l = none
  | [], _ => if_neg (List.cons_ne_nil x t)
  | a :: l, h => by
      rw [List.mem_cons, not_or] at h
      rw [splitOnceAt, dropPrefix?_cons_ne (Ne.symm h.1),
        splitOnceAt_eq_none h.2]
      rfl

end Strip

/-! ## UTF-8 -/

/-- The UTF-8 bytes of a text. -/
def utf8 (s : List Char) : List UInt8 := s.flatMap String.utf8EncodeChar

/-- The text with these UTF-8 bytes, when they are one. -/
def utf8Decode (bs : List UInt8) : Option (List Char) :=
  (ByteArray.mk bs.toArray).utf8Decode?.map Array.toList

@[simp] theorem utf8_nil : utf8 [] = [] := rfl

@[simp] theorem utf8_append (s t : List Char) :
    utf8 (s ++ t) = utf8 s ++ utf8 t := by
  simp [utf8]

theorem utf8_cons (c : Char) (s : List Char) :
    utf8 (c :: s) = String.utf8EncodeChar c ++ utf8 s := by
  simp [utf8]

theorem utf8Decode_utf8 (s : List Char) : utf8Decode (utf8 s) = some s := by
  have h : (ByteArray.mk (utf8 s).toArray) = s.utf8Encode := by
    rw [← List.data_toByteArray]
    rfl
  simp [utf8Decode, h]

theorem utf8Decode_eq_some {bs : List UInt8} {s : List Char} :
    utf8Decode bs = some s ↔ bs = utf8 s := by
  constructor
  · intro h
    obtain ⟨chars, hchars, rfl⟩ := Option.map_eq_some_iff.mp h
    obtain ⟨t, ht⟩ :=
      ByteArray.isSome_utf8Decode?_iff.mp (Option.isSome_of_eq_some hchars)
    have hbytes : bs = utf8 t := by
      have hdata := congrArg (fun b : ByteArray => b.data.toList) ht
      simpa [utf8, List.utf8Encode] using hdata
    have hdecoded := utf8Decode_utf8 t
    rw [← hbytes, h] at hdecoded
    rw [hbytes, Option.some.inj hdecoded]
  · rintro rfl
    exact utf8Decode_utf8 s

theorem utf8_injective : Function.Injective utf8 := by
  intro s t h
  have hs := utf8Decode_utf8 s
  rw [h, utf8Decode_utf8] at hs
  exact (Option.some.inj hs).symm

theorem forall_ascii {P : Char → Prop} (h : ∀ n < 128, P (Char.ofNat n))
    {c : Char} (hc : c.toNat ≤ 127) : P c := by
  have hn := h c.toNat (by omega)
  rwa [Char.ofNat_toNat] at hn

theorem utf8EncodeChar_ascii {c : Char} (h : c.toNat ≤ 127) :
    String.utf8EncodeChar c = [UInt8.ofNat c.toNat] := by
  unfold String.utf8EncodeChar
  exact if_pos h

/-- Every octet of another character is outside of ASCII; what matters is the
first. -/
theorem utf8EncodeChar_head {c : Char} (h : 127 < c.toNat) :
    ∃ b bs, String.utf8EncodeChar c = b :: bs ∧ 127 < b.toNat := by
  have hv : ¬c.val.toNat ≤ 127 := by
    have hc : c.toNat = c.val.toNat := rfl
    omega
  unfold String.utf8EncodeChar
  simp only [hv, if_false]
  split
  · refine ⟨_, _, rfl, ?_⟩
    rw [UInt8.toNat_ofNat']
    omega
  · split
    · refine ⟨_, _, rfl, ?_⟩
      rw [UInt8.toNat_ofNat']
      omega
    · refine ⟨_, _, rfl, ?_⟩
      rw [UInt8.toNat_ofNat']
      omega

theorem utf8EncodeChar_large {c : Char} (h : 127 < c.toNat) :
    ∀ b ∈ String.utf8EncodeChar c, 127 < b.toNat := by
  have hv : ¬c.val.toNat ≤ 127 := by
    have hc : c.toNat = c.val.toNat := rfl
    omega
  unfold String.utf8EncodeChar
  simp only [hv, if_false]
  split
  · simp only [List.forall_mem_cons, UInt8.toNat_ofNat', List.not_mem_nil,
      false_implies, implies_true, and_true]
    omega
  · split
    · simp only [List.forall_mem_cons, UInt8.toNat_ofNat', List.not_mem_nil,
        false_implies, implies_true, and_true]
      omega
    · simp only [List.forall_mem_cons, UInt8.toNat_ofNat', List.not_mem_nil,
        false_implies, implies_true, and_true]
      omega

/-! ## Indices into the octets -/

/-- `char::len_utf8`. -/
def width (c : Char) : Nat := (String.utf8EncodeChar c).length

theorem width_pos (c : Char) : 0 < width c := by
  rw [width, String.length_utf8EncodeChar]
  exact c.utf8Size_pos

theorem length_utf8_cons (c : Char) (s : List Char) :
    (utf8 (c :: s)).length = width c + (utf8 s).length := by
  rw [utf8_cons, List.length_append, width]

theorem length_le_utf8 : ∀ s : List Char, s.length ≤ (utf8 s).length
  | [] => Nat.le_refl _
  | c :: s => by
      have hpos := width_pos c
      have hrest := length_le_utf8 s
      rw [length_utf8_cons, List.length_cons]
      omega

/-- The text from an octet on, when a character starts there. -/
def dropOctets (s : List Char) (n : Nat) : Option (List Char) :=
  if n = 0 then some s
  else
    match s with
    | [] => none
    | c :: s => if width c ≤ n then dropOctets s (n - width c) else none

/-- The text up to an octet, when a character ends there. -/
def takeOctets (s : List Char) (n : Nat) : Option (List Char) :=
  if n = 0 then some []
  else
    match s with
    | [] => none
    | c :: s =>
        if width c ≤ n then (takeOctets s (n - width c)).map (c :: ·) else none

theorem dropOctets_append :
    ∀ (p r : List Char), dropOctets (p ++ r) (utf8 p).length = some r
  | [], r => by simp [dropOctets.eq_def]
  | c :: p, r => by
      have hpos := width_pos c
      rw [length_utf8_cons, List.cons_append, dropOctets, if_neg (by omega),
        if_pos (by omega), Nat.add_sub_cancel_left, dropOctets_append p r]

theorem takeOctets_append :
    ∀ (p r : List Char), takeOctets (p ++ r) (utf8 p).length = some p
  | [], r => by simp [takeOctets.eq_def]
  | c :: p, r => by
      have hpos := width_pos c
      rw [length_utf8_cons, List.cons_append, takeOctets, if_neg (by omega),
        if_pos (by omega), Nat.add_sub_cancel_left, takeOctets_append p r]
      rfl

/-! ## The order of the octets -/

/-- The octets of a text as numbers, which is what texts are compared by. -/
def octets (s : List Char) : List Nat := (utf8 s).map UInt8.toNat

theorem octets_ascii : ∀ {s : List Char}, (∀ c ∈ s, c.toNat ≤ 127) →
    octets s = s.map Char.toNat
  | [], _ => rfl
  | c :: s, h => by
      obtain ⟨hc, hs⟩ := List.forall_mem_cons.mp h
      have hrest := octets_ascii hs
      unfold octets at hrest ⊢
      rw [utf8_cons, utf8EncodeChar_ascii hc, List.map_append, hrest]
      simp only [List.map_cons, List.map_nil, List.singleton_append,
        UInt8.toNat_ofNat', List.cons.injEq,
        and_true]
      exact Nat.mod_eq_of_lt (by omega)

theorem map_toNat_lt :
    ∀ {s t : List Char}, s.map Char.toNat < t.map Char.toNat ↔ s < t
  | [], [] => by simp
  | [], _ :: _ => by simp
  | _ :: _, [] => by simp
  | c :: s, d :: t => by
      have hlt : c.toNat < d.toNat ↔ c < d := Iff.rfl
      rw [List.map_cons, List.map_cons, List.cons_lt_cons_iff,
        List.cons_lt_cons_iff, map_toNat_lt,
        Char.toNat_inj, hlt]

theorem octets_lt {s t : List Char} (hs : ∀ c ∈ s, c.toNat ≤ 127)
    (ht : ∀ c ∈ t, c.toNat ≤ 127) :
    octets s < octets t ↔ s < t := by
  rw [octets_ascii hs, octets_ascii ht, map_toNat_lt]

theorem octets_le {s t : List Char} (hs : ∀ c ∈ s, c.toNat ≤ 127)
    (ht : ∀ c ∈ t, c.toNat ≤ 127) :
    octets s ≤ octets t ↔ s ≤ t := by
  rw [← not_lt, ← not_lt, octets_lt ht hs]
end Lib
