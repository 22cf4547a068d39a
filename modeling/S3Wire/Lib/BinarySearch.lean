/-
# `Lib.BinarySearch` — insertion into a sorted list by binary search

The branchless search of the Rust standard library: an interval `[base, base +
size)` that always keeps at least one element is halved until one is left, and
that one is compared a last time.  Its documented contract is about sorted
input only:

    found      Ok i     the element at i has the key
    not found  Err i    inserting at i keeps the order

`binarySearch_ok` and `binarySearch_error` are that contract, and
`insertIdx_sorted` is what it is used for: a strictly sorted list stays strictly
sorted.
-/
import Mathlib

namespace Lib

section Search

variable {α κ : Type*} [LinearOrder κ] (key : α → κ)

/-- Strictly ascending keys. -/
def KeySorted (xs : List α) : Prop := xs.Pairwise fun a b => key a < key b

/-- The halving loop.  Every turn removes at least one element of the interval,
so the length of the list is fuel enough. -/
def searchLoop (xs : List α) (b : κ) : Nat → Nat → Nat → Nat
  | 0, base, _ => base
  | fuel + 1, base, size =>
      if size > 1 then
        let half := size / 2
        let mid := base + half
        let base' :=
          match xs[mid]? with
          | some x => if b < key x then base else mid
          | none => base
        searchLoop xs b fuel base' (size - half)
      else base

/-- `slice::binary_search_by_key`. -/
def binarySearchByKey (xs : List α) (b : κ) : Except Nat Nat :=
  let base := searchLoop key xs b xs.length 0 xs.length
  match xs[base]? with
  | none => .error 0
  | some x =>
      if key x = b then .ok base
      else .error (if key x < b then base + 1 else base)

variable {key} {xs : List α} {b : κ}

theorem KeySorted.get_lt (hs : KeySorted key xs) {i j : Nat} (hij : i < j)
    (hj : j < xs.length) :
    key (xs[i]) < key (xs[j]) :=
  List.pairwise_iff_getElem.mp hs i j (by omega) hj hij

/-- What the loop keeps: the interval is inside the list, everything behind it
is too large, and its first element is not, unless it is the first of all. -/
structure Bracket (key : α → κ) (xs : List α) (b : κ) (base size : Nat) :
    Prop where
  pos : 0 < size
  inside : base + size ≤ xs.length
  above : ∀ i (h : i < xs.length), base + size ≤ i → b < key (xs[i])
  below : ∀ h : base < xs.length, base ≠ 0 → key (xs[base]) ≤ b

theorem Bracket.halve (hs : KeySorted key xs) {base size : Nat}
    (h : Bracket key xs b base size) (hsize : 1 < size) :
    Bracket key xs b
      (match xs[base + size / 2]? with
        | some x => if b < key x then base else base + size / 2
        | none => base)
      (size - size / 2) := by
  have hmid : base + size / 2 < xs.length := by
    have := h.inside
    omega
  have hinside := h.inside
  rw [List.getElem?_eq_getElem hmid]
  dsimp only
  split
  · -- the middle is too large: so is everything from the middle on
    next hlt =>
      refine ⟨by omega, by omega, ?_, h.below⟩
      intro i hi hle
      rcases Nat.lt_or_ge (base + size / 2) i with hlt' | hge
      · exact hlt.trans (hs.get_lt hlt' hi)
      · rcases Nat.lt_or_ge i (base + size / 2) with hb | hb
        · omega
        · have : i = base + size / 2 := by omega
          subst this
          exact hlt
  · next hle =>
      refine ⟨by omega, by omega, ?_, fun _ _ => not_lt.mp hle⟩
      intro i hi hi'
      exact h.above i hi (by omega)

theorem searchLoop_bracket (hs : KeySorted key xs) :
    ∀ (fuel base size : Nat), size ≤ fuel + 1 → Bracket key xs b base size →
      Bracket key xs b (searchLoop key xs b fuel base size) 1
  | 0, base, size, hf, h => by
      have : size = 1 := by
        have := h.pos
        omega
      subst this
      exact h
  | fuel + 1, base, size, hf, h => by
      unfold searchLoop
      split
      · next hsize =>
          exact searchLoop_bracket hs fuel _ _ (by omega) (h.halve hs hsize)
      · next hsize =>
          have : size = 1 := by
            have := h.pos
            omega
          subst this
          exact h

theorem bracket_final (hs : KeySorted key xs) (hne : xs ≠ []) :
    Bracket key xs b (searchLoop key xs b xs.length 0 xs.length) 1 :=
  searchLoop_bracket hs _ _ _ (by omega)
    ⟨List.length_pos_iff.mpr hne, by omega, fun i h hle => by omega,
      fun _ h => absurd rfl h⟩

theorem binarySearch_ok {i : Nat} (h : binarySearchByKey key xs b = .ok i) :
    ∃ x, xs[i]? = some x ∧ key x = b := by
  unfold binarySearchByKey at h
  dsimp only at h
  split at h
  · cases h
  · next x hx =>
      split at h
      · next hk =>
          cases h
          exact ⟨x, hx, hk⟩
      · cases h

theorem binarySearch_error (hs : KeySorted key xs) {i : Nat}
    (h : binarySearchByKey key xs b = .error i) :
    i ≤ xs.length ∧ (∀ x ∈ xs.take i, key x < b) ∧
    (∀ x ∈ xs.drop i, b < key x) := by
  rcases List.eq_nil_or_concat xs with rfl | hne
  · have : i = 0 := by
      simpa [binarySearchByKey, searchLoop] using h.symm
    simp [this]
  · have hne : xs ≠ [] := by
      rintro rfl
      obtain ⟨_, _, h⟩ := hne
      simp at h
    have hb : Bracket key xs b (searchLoop key xs b xs.length 0 xs.length) 1 :=
      bracket_final hs hne
    unfold binarySearchByKey at h
    revert h
    generalize searchLoop key xs b xs.length 0 xs.length = base at hb
    intro h
    have hlen : base < xs.length := by
      have := hb.inside
      omega
    simp only [List.getElem?_eq_getElem hlen] at h
    split at h
    · cases h
    next hk =>
      -- every index below `j` holds a key at most that of `j`
      have htake : ∀ j (hj : j < xs.length), key (xs[j]) < b →
          ∀ x ∈ xs.take (j + 1), key x < b := by
        intro j hj hlt x hx
        obtain ⟨k, hk', rfl⟩ := List.mem_take_iff_getElem.mp hx
        rcases Nat.lt_or_ge k j with hkj | hkj
        · exact (hs.get_lt hkj hj).trans hlt
        · have : k = j := by omega
          subst this
          exact hlt
      split at h
      · next hlt =>
          obtain rfl : base + 1 = i := by simpa using h
          refine ⟨hlen, htake base hlen hlt, ?_⟩
          intro x hx
          obtain ⟨k, hk', rfl⟩ := List.mem_drop_iff_getElem.mp hx
          exact hb.above _ _ (by omega)
      · next hge =>
          obtain rfl : base = i := by simpa using h
          have hgt : b < key (xs[base]) :=
            lt_of_le_of_ne (not_lt.mp hge) (Ne.symm hk)
          have hzero : base = 0 := by
            by_contra hne0
            exact absurd (hb.below hlen hne0) (not_le.mpr hgt)
          subst hzero
          refine ⟨by omega, by simp, ?_⟩
          intro x hx
          obtain ⟨k, hk', rfl⟩ := List.mem_drop_iff_getElem.mp hx
          rcases Nat.eq_zero_or_pos k with rfl | hpos
          · exact hgt
          · exact hgt.trans (hs.get_lt (by omega) _)

/-- The search misses exactly the keys that are not in the list. -/
theorem binarySearch_error_notMem (hs : KeySorted key xs) {i : Nat}
    (h : binarySearchByKey key xs b = .error i) : ∀ x ∈ xs, key x ≠ b := by
  obtain ⟨-, hlt, hgt⟩ := binarySearch_error hs h
  intro x hx
  rw [← List.take_append_drop i xs, List.mem_append] at hx
  rcases hx with hx | hx
  · exact (hlt x hx).ne
  · exact (hgt x hx).ne'

theorem insertIdx_eq_append : ∀ {i : Nat} {l : List α} (y : α), i ≤ l.length →
    l.insertIdx i y = l.take i ++ y :: l.drop i
  | 0, _, _, _ => by simp
  | _ + 1, [], _, h => by simp at h
  | i + 1, x :: l, y, h => by
      simp [insertIdx_eq_append y (Nat.le_of_succ_le_succ h)]

theorem insertIdx_sorted (hs : KeySorted key xs) {i : Nat} {y : α}
    (h : binarySearchByKey key xs (key y) = .error i) :
    KeySorted key (xs.insertIdx i y) := by
  obtain ⟨hle, hlt, hgt⟩ := binarySearch_error hs h
  rw [insertIdx_eq_append y hle]
  unfold KeySorted
  rw [← List.take_append_drop i xs] at hs
  obtain ⟨hl, hr, hlr⟩ := List.pairwise_append.mp hs
  refine List.pairwise_append.mpr ⟨hl, List.pairwise_cons.mpr ⟨hgt, hr⟩, ?_⟩
  intro a ha c hc
  rcases List.mem_cons.mp hc with rfl | hc
  · exact hlt a ha
  · exact hlr a ha c hc

theorem KeySorted.nodup (h : KeySorted key xs) : xs.Nodup :=
  h.imp fun hlt => ne_of_apply_ne key (ne_of_lt hlt)

theorem KeySorted.eq_of_perm {ys : List α} (hx : KeySorted key xs)
    (hy : KeySorted key ys) (h : xs.Perm ys) : xs = ys :=
  h.eq_of_pairwise (fun _ _ _ _ hac hca => absurd (hac.trans hca) (lt_irrefl _))
    hx hy

end Search

end Lib
