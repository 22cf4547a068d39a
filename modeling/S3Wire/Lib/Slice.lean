/-
# `Lib.Slice` — cutting a list into consecutive pieces

`chunks k xs` is the iterator `slice::chunks`: pieces of length `k`, the last
one possibly shorter.  `piece k xs i` is the `i`-th of them addressed directly,
by offset and length; the pieces `0 … n-1` of a list that `n` pieces cover
concatenate to the list (`flatten_pieces`), all but the last are full
(`length_piece_of_lt`), and the last one is not empty (`piece_ne_nil`).
-/
import Mathlib

namespace Lib

variable {α : Type*}

/-- `slice::chunks`.  Every turn removes an element when `k` is positive, so the
length of the list is fuel enough. -/
def chunksAux (k : Nat) : Nat → List α → List (List α)
  | 0, _ => []
  | fuel + 1, xs =>
      if xs.isEmpty then [] else xs.take k :: chunksAux k fuel (xs.drop k)

def chunks (k : Nat) (xs : List α) : List (List α) := chunksAux k xs.length xs

theorem flatten_chunksAux {k : Nat} (hk : 0 < k) : ∀ (fuel : Nat) (xs : List α),
    xs.length ≤ fuel → (chunksAux k fuel xs).flatten = xs
  | 0, xs, h => by
      have : xs = [] := List.length_eq_zero_iff.mp (by omega)
      simp [this, chunksAux]
  | fuel + 1, xs, h => by
      unfold chunksAux
      split
      · next he => simp [List.isEmpty_iff.mp he]
      · next hne =>
          have hpos : 0 < xs.length :=
            List.length_pos_iff.mpr (by simpa using hne)
          rw [List.flatten_cons, flatten_chunksAux hk fuel _ (by simp; omega),
            List.take_append_drop]

theorem flatten_chunks {k : Nat} (hk : 0 < k) (xs : List α) :
    (chunks k xs).flatten = xs :=
  flatten_chunksAux hk _ _ le_rfl

/-- The piece of length `k` number `i`, counted from zero. -/
def piece (k : Nat) (xs : List α) (i : Nat) : List α := (xs.drop (i * k)).take k

theorem length_piece (k : Nat) (xs : List α) (i : Nat) :
    (piece k xs i).length = min k (xs.length - i * k) := by
  simp [piece]

theorem length_piece_of_lt {k : Nat} {xs : List α} {i n : Nat} (hi : i + 1 < n)
    (hn : (n - 1) * k < xs.length) : (piece k xs i).length = k := by
  have hmul : (i + 1) * k ≤ (n - 1) * k := Nat.mul_le_mul_right k (by omega)
  rw [length_piece, Nat.min_eq_left]
  have : (i + 1) * k = i * k + k := by ring
  omega

theorem piece_ne_nil {k : Nat} (hk : 0 < k) {xs : List α} {i : Nat}
    (hi : i * k < xs.length) :
    piece k xs i ≠ [] := by
  rw [← List.length_pos_iff, length_piece]
  omega

theorem flatten_pieces_take (k : Nat) (xs : List α) : ∀ n : Nat,
    ((List.range n).map (piece k xs)).flatten = xs.take (n * k)
  | 0 => by simp
  | n + 1 => by
      rw [List.range_succ, List.map_append, List.flatten_append,
        flatten_pieces_take k xs n]
      have hsplit : (n + 1) * k = n * k + k := by ring
      rw [hsplit, List.take_add]
      simp [piece]

theorem flatten_pieces {k : Nat} {xs : List α} {n : Nat}
    (hn : xs.length ≤ n * k) :
    ((List.range n).map (piece k xs)).flatten = xs := by
  rw [flatten_pieces_take, List.take_of_length_le hn]

end Lib
