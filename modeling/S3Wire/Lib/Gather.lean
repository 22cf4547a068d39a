/-
# `Lib.Gather` — putting pieces together up to a bound

A source hands out a list of items piece by piece, and ends or fails.  `gather`
holds what it was given and gives up before it would hold more than `maximum`.
All of its results come from one fact: pieces with items only are held together
(`gather_held`) or are too much (`gather_tooMuch`), however they are cut, and
every source is such pieces and then nothing, a failure or its end
(`exists_items_append`).
-/
import Mathlib

namespace Lib

/-- What one pull of a source yields. -/
inductive Piece (α ε : Type*) where
  | items (xs : List α)
  | failure (e : ε)
  | finish

namespace Piece

variable {α ε : Type*}

/-- The items of a piece. -/
def taken : Piece α ε → List α
  | items xs => xs
  | failure _ => []
  | finish => []

/-- A piece after which there may be more. -/
def IsItems : Piece α ε → Prop
  | items _ => True
  | failure _ => False
  | finish => False

end Piece

section Gather

variable {α ε : Type*} {maximum : Nat} {tooMuch : ε} {held : List α}
  {before pieces : List (Piece α ε)}

/-- The items of a list of pieces. -/
def takenAll (pieces : List (Piece α ε)) : List α := pieces.flatMap Piece.taken

/-- What comes of the pieces after `held`: `none` while there is neither an end
nor too much. -/
def gather (maximum : Nat) (tooMuch : ε) : List α → List (Piece α ε) →
    Option (Except ε (List α))
  | _, [] => none
  | held, .items xs :: rest =>
      if maximum < held.length + xs.length then some (.error tooMuch)
      else gather maximum tooMuch (held ++ xs) rest
  | _, .failure e :: _ => some (.error e)
  | held, .finish :: _ => some (.ok held)

theorem takenAll_cons (xs : List α) (pieces : List (Piece α ε)) :
    takenAll (.items xs :: pieces) = xs ++ takenAll pieces := List.flatMap_cons

theorem gather_held :
    ∀ {held : List α} {before : List (Piece α ε)} (rest : List (Piece α ε)),
    (∀ p ∈ before, p.IsItems) → (held ++ takenAll before).length ≤ maximum →
    gather maximum tooMuch held (before ++ rest) =
      gather maximum tooMuch (held ++ takenAll before) rest
  | held, [], rest, _,
    _ => by rw [takenAll, List.flatMap_nil, List.append_nil, List.nil_append]
  | held, .items xs :: before, rest, hbefore, hle => by
      rw [takenAll_cons, ← List.append_assoc] at hle ⊢
      have hfits : ¬ maximum < held.length + xs.length := by
        rw [List.length_append, List.length_append] at hle
        omega
      rw [List.cons_append, gather, if_neg hfits]
      exact gather_held rest
        (fun p hp => hbefore p (List.mem_cons_of_mem _ hp)) hle
  | _, .failure _ :: _, _, hbefore, _ =>
      (hbefore _ (List.mem_cons_self ..)).elim
  | _, .finish :: _, _, hbefore, _ => (hbefore _ (List.mem_cons_self ..)).elim

theorem gather_tooMuch :
    ∀ {held : List α} {before : List (Piece α ε)} (rest : List (Piece α ε)),
    (∀ p ∈ before, p.IsItems) → held.length ≤ maximum →
    maximum < (held ++ takenAll before).length →
    gather maximum tooMuch held (before ++ rest) = some (.error tooMuch)
  | held, [], rest, _, hheld, hlt => by
      rw [takenAll, List.flatMap_nil, List.append_nil] at hlt
      omega
  | held, .items xs :: before, rest, hbefore, hheld, hlt => by
      rw [takenAll_cons, ← List.append_assoc] at hlt
      rw [List.cons_append, gather]
      split
      · rfl
      · next hfits =>
          rw [← List.length_append] at hfits
          exact gather_tooMuch rest
            (fun p hp => hbefore p (List.mem_cons_of_mem _ hp))
              (Nat.le_of_not_lt hfits) hlt
  | _, .failure _ :: _, _, hbefore, _, _ =>
      (hbefore _ (List.mem_cons_self ..)).elim
  | _, .finish :: _, _, hbefore, _, _ =>
      (hbefore _ (List.mem_cons_self ..)).elim

theorem exists_items_append : ∀ pieces : List (Piece α ε), ∃ before rest,
    pieces = before ++ rest ∧
    (∀ p ∈ before, p.IsItems) ∧
    (rest = [] ∨ (∃ e tail, rest = .failure e :: tail) ∨
      ∃ tail, rest = .finish :: tail)
  | [] => ⟨[], [], rfl, List.forall_mem_nil _, .inl rfl⟩
  | .failure e :: tail =>
      ⟨[], _, rfl, List.forall_mem_nil _, .inr (.inl ⟨e, tail, rfl⟩)⟩
  | .finish :: tail =>
      ⟨[], _, rfl, List.forall_mem_nil _, .inr (.inr ⟨tail, rfl⟩)⟩
  | .items xs :: pieces => by
      obtain ⟨before, rest, rfl, hbefore, hrest⟩ := exists_items_append pieces
      exact ⟨.items xs :: before, rest, rfl,
        List.forall_mem_cons.mpr ⟨trivial, hbefore⟩, hrest⟩

theorem gather_eq_ok {out : List α} :
    gather maximum tooMuch [] pieces = some (.ok out) ↔
    ∃ before rest, pieces = before ++ .finish :: rest ∧
    (∀ p ∈ before, p.IsItems) ∧
      (takenAll before).length ≤ maximum ∧ out = takenAll before := by
  constructor
  · intro h
    obtain ⟨before, rest, rfl, hbefore, hrest⟩ := exists_items_append pieces
    rcases Nat.lt_or_ge maximum (takenAll before).length with hlt | hle
    · rw [gather_tooMuch rest hbefore (Nat.zero_le _) hlt] at h
      cases h
    · rw [gather_held rest hbefore hle] at h
      obtain rfl | ⟨e, tail, rfl⟩ | ⟨tail, rfl⟩ := hrest
      · cases h
      · cases h
      · cases h
        exact ⟨before, tail, rfl, hbefore, hle, rfl⟩
  · rintro ⟨before, rest, rfl, hbefore, hle, rfl⟩
    exact gather_held _ hbefore hle

theorem gather_eq_tooMuch (hown : ∀ e, .failure e ∈ pieces → e ≠ tooMuch) :
    gather maximum tooMuch [] pieces = some (.error tooMuch) ↔
      ∃ before rest, pieces = before ++ rest ∧ (∀ p ∈ before, p.IsItems) ∧
      maximum < (takenAll before).length := by
  constructor
  · intro h
    obtain ⟨before, rest, rfl, hbefore, hrest⟩ := exists_items_append pieces
    rcases Nat.lt_or_ge maximum (takenAll before).length with hlt | hle
    · exact ⟨before, rest, rfl, hbefore, hlt⟩
    · rw [gather_held rest hbefore hle] at h
      obtain rfl | ⟨e, tail, rfl⟩ | ⟨tail, rfl⟩ := hrest
      · cases h
      · cases h
        exact absurd rfl
          (hown _ (List.mem_append_right _ (List.mem_cons_self ..)))
      · cases h
  · rintro ⟨before, rest, rfl, hbefore, hlt⟩
    exact gather_tooMuch rest hbefore (Nat.zero_le _) hlt

theorem gather_congr {before' : List (Piece α ε)}
    (rest rest' : List (Piece α ε)) (hbefore : ∀ p ∈ before, p.IsItems)
    (hbefore' : ∀ p ∈ before', p.IsItems)
    (hsame : takenAll before = takenAll before') :
    gather maximum tooMuch []
    (before ++ .finish :: rest) = gather maximum tooMuch []
    (before' ++ .finish :: rest') := by
  rcases Nat.lt_or_ge maximum (takenAll before).length with hlt | hle
  · rw [gather_tooMuch _ hbefore (Nat.zero_le _) hlt,
      gather_tooMuch _ hbefore' (Nat.zero_le _) (hsame ▸ hlt)]
  · rw [gather_held _ hbefore hle, gather_held _ hbefore' (hsame ▸ hle), hsame]
    rfl

end Gather

end Lib
