/-
# `Lib.Base64` — the standard base64 encoding

Three octets are four characters of the alphabet; a last group of one or two
octets is padded with `=`.  What the users of the encoding rely on is its length
and its alphabet.
-/
import Mathlib

namespace Lib

/-- The character of a group of six bits (RFC 4648, section 4). -/
def base64Char (n : Nat) : Char :=
  if n < 26 then Char.ofNat (65 + n)
  else if n < 52 then Char.ofNat (97 + (n - 26))
  else if n < 62 then Char.ofNat (48 + (n - 52))
  else if n = 62 then '+'
  else '/'

/-- Three bytes make four characters; what is left over is padded. -/
def base64Encode : List UInt8 → List Char
  | [] => []
  | [a] => [base64Char (a.toNat / 4), base64Char (a.toNat % 4 * 16), '=', '=']
  | [a, b] =>
      [base64Char (a.toNat / 4), base64Char (a.toNat % 4 * 16 + b.toNat / 16),
        base64Char (b.toNat % 16 * 4), '=']
  | a :: b :: c :: rest =>
      base64Char (a.toNat / 4) :: base64Char
        (a.toNat % 4 * 16 + b.toNat / 16) ::
        base64Char (b.toNat % 16 * 4 + c.toNat / 64) :: base64Char
          (c.toNat % 64) ::
        base64Encode rest

theorem length_base64Encode : ∀ bs : List UInt8,
    (base64Encode bs).length = (bs.length + 2) / 3 * 4
  | [] => rfl
  | [_] => by simp [base64Encode]
  | [_, _] => by simp [base64Encode]
  | a :: b :: c :: rest => by
      simp only [base64Encode, List.length_cons, length_base64Encode rest]
      omega

/-! ## Groups of six bits -/

/-- The groups of six bits behind the characters that are not padding. -/
def sextets : List UInt8 → List Nat
  | [] => []
  | [a] => [a.toNat / 4, a.toNat % 4 * 16]
  | [a, b] => [a.toNat / 4, a.toNat % 4 * 16 + b.toNat / 16, b.toNat % 16 * 4]
  | a :: b :: c :: rest =>
      (a.toNat / 4) :: (a.toNat % 4 * 16 + b.toNat / 16) ::
        (b.toNat % 16 * 4 + c.toNat / 64) ::
        (c.toNat % 64) :: sextets rest

/-- The number of padding characters behind `n` octets. -/
def base64Padding (n : Nat) : Nat :=
  match n % 3 with
  | 0 => 0
  | 1 => 2
  | _ => 1

theorem base64Padding_add_three (n : Nat) :
    base64Padding (n + 3) = base64Padding n := by
  simp [base64Padding]

theorem base64Encode_eq : ∀ bs : List UInt8,
    base64Encode bs = (sextets bs).map base64Char ++
      List.replicate (base64Padding bs.length) '='
  | [] => rfl
  | [_] => by simp [base64Encode, sextets, base64Padding]
  | [_, _] => by simp [base64Encode, sextets, base64Padding]
  | a :: b :: c :: rest => by
      simp only [base64Encode, sextets, List.length_cons, List.map_cons,
        List.cons_append,
        base64Padding_add_three, base64Encode_eq rest]

theorem sextet_lt : ∀ {bs : List UInt8} {n : Nat}, n ∈ sextets bs → n < 64
  | [], n, h => by simp [sextets] at h
  | [a], n, h => by
      have := a.toNat_lt
      simp only [sextets, List.mem_cons, List.not_mem_nil, or_false] at h
      omega
  | [a, b], n, h => by
      have := a.toNat_lt
      have := b.toNat_lt
      simp only [sextets, List.mem_cons, List.not_mem_nil, or_false] at h
      omega
  | a :: b :: c :: rest, n, h => by
      have := a.toNat_lt
      have := b.toNat_lt
      have := c.toNat_lt
      simp only [sextets, List.mem_cons] at h
      rcases h with h | h | h | h | h
      · omega
      · omega
      · omega
      · omega
      · exact sextet_lt h

theorem base64Padding_le (n : Nat) : base64Padding n ≤ (n + 2) / 3 * 4 := by
  unfold base64Padding
  rcases Nat.eq_zero_or_pos n with h | h
  · simp [h]
  · split <;> omega

theorem length_sextets : ∀ bs : List UInt8,
    (sextets bs).length = (bs.length + 2) / 3 * 4 - base64Padding bs.length
  | [] => rfl
  | [_] => by simp [sextets, base64Padding]
  | [_, _] => by simp [sextets, base64Padding]
  | a :: b :: c :: rest => by
      have hpad := base64Padding_le rest.length
      simp only [sextets, List.length_cons, base64Padding_add_three,
        length_sextets rest]
      omega

/-- The bits of the last group that belong to no octet are zero: four of them
before two padding characters, two before one. -/
theorem last_sextet : ∀ {bs : List UInt8} {n : Nat}, (sextets bs).getLast? =
    some n →
    n % 4 ^ base64Padding bs.length = 0
  | [], n, h => by simp [sextets] at h
  | [a], n, h => by
      simp only [sextets, List.getLast?_cons_cons, List.getLast?_singleton,
        Option.some.injEq] at h
      have hpad : base64Padding [a].length = 2 := rfl
      rw [hpad]
      omega
  | [a, b], n, h => by
      simp only [sextets, List.getLast?_cons_cons, List.getLast?_singleton,
        Option.some.injEq] at h
      have hpad : base64Padding [a, b].length = 1 := rfl
      rw [hpad]
      omega
  | [a, b, c], n, h => by
      have hpad : base64Padding [a, b, c].length = 0 := by simp [base64Padding]
      rw [hpad, pow_zero, Nat.mod_one]
  | a :: b :: c :: d :: rest, n, h => by
      have hne : sextets (d :: rest) ≠ [] := by
        cases rest with
        | nil => simp [sextets]
        | cons e rest =>
            cases rest with
            | nil => simp [sextets]
            | cons f rest => simp [sextets]
      simp only [List.length_cons, base64Padding_add_three]
      refine @last_sextet (d :: rest) n ?_
      rw [← h]
      simp only [sextets, List.getLast?_cons]
      rw [List.getLast?_eq_some_getLast hne]
      simp

/-! ## Octets from groups of six bits -/

/-- As many groups as `n` octets have, the last with its unused bits clear, are
the groups of `n` octets. -/
theorem exists_sextets : ∀ (n : Nat) {groups : List Nat},
    groups.length = (n + 2) / 3 * 4 - base64Padding n →
    (∀ s ∈ groups, s < 64) →
    (∀ s, groups.getLast? = some s → s % 4 ^ base64Padding n = 0) →
    ∃ bs : List UInt8, bs.length = n ∧ sextets bs = groups
  | 0, groups, hlength, _, _ => by
      have hzero : (0 + 2) / 3 * 4 - base64Padding 0 = 0 := rfl
      rw [hzero, List.length_eq_zero_iff] at hlength
      exact ⟨[], rfl, hlength.symm⟩
  | 1, groups, hlength, hlt, hlast => by
      have htwo : (1 + 2) / 3 * 4 - base64Padding 1 = 2 := rfl
      rw [htwo, List.length_eq_two] at hlength
      obtain ⟨x, y, rfl⟩ := hlength
      have hx := hlt x (by simp)
      have hy := hlt y (by simp)
      have hzero : y % 16 = 0 := hlast y rfl
      refine ⟨[UInt8.ofNat (x * 4 + y / 16)], rfl, ?_⟩
      simp (disch := omega) only [sextets, UInt8.toNat_ofNat', Nat.mod_eq_of_lt]
      refine congrArg₂ (fun a b => [a, b]) ?_ ?_
      · omega
      · omega
  | 2, groups, hlength, hlt, hlast => by
      have hthree : (2 + 2) / 3 * 4 - base64Padding 2 = 3 := rfl
      rw [hthree, List.length_eq_three] at hlength
      obtain ⟨x, y, z, rfl⟩ := hlength
      have hx := hlt x (by simp)
      have hy := hlt y (by simp)
      have hz := hlt z (by simp)
      have hzero : z % 4 = 0 := hlast z rfl
      refine ⟨[UInt8.ofNat (x * 4 + y / 16), UInt8.ofNat (y % 16 * 16 + z / 4)],
        rfl, ?_⟩
      simp (disch := omega) only [sextets, UInt8.toNat_ofNat', Nat.mod_eq_of_lt,
        List.cons.injEq, and_true]
      refine ⟨?_, ?_, ?_⟩
      · omega
      · omega
      · omega
  | n + 3, groups, hlength, hlt, hlast => by
      have hpad := base64Padding_le n
      rw [base64Padding_add_three] at hlength hlast
      match groups, hlength, hlt, hlast with
      | x :: y :: z :: u :: rest, hlength, hlt, hlast =>
          have hx := hlt x (by simp)
          have hy := hlt y (by simp)
          have hz := hlt z (by simp)
          have hu := hlt u (by simp)
          have hrest : rest.length = (n + 2) / 3 * 4 - base64Padding n := by
            simp only [List.length_cons] at hlength
            omega
          have hlastRest : ∀ s, rest.getLast? = some s →
              s % 4 ^ base64Padding n = 0 := by
            intro s hs
            refine hlast s ?_
            rw [List.getLast?_cons, List.getLast?_cons, List.getLast?_cons,
              List.getLast?_cons, hs]
            rfl
          obtain ⟨bs, hbs, hsextets⟩ :=
            exists_sextets n hrest (fun s hs => hlt s (by simp [hs])) hlastRest
          refine ⟨UInt8.ofNat (x * 4 + y / 16) :: UInt8.ofNat
            (y % 16 * 16 + z / 4) ::
            UInt8.ofNat (z % 4 * 64 + u) :: bs, ?_, ?_⟩
          · rw [List.length_cons, List.length_cons, List.length_cons, hbs]
          · simp (disch := omega) only [sextets, UInt8.toNat_ofNat',
              Nat.mod_eq_of_lt, hsextets, List.cons.injEq,
              and_true]
            refine ⟨?_, ?_, ?_, ?_⟩
            · omega
            · omega
            · omega
            · omega
      | [], hlength, _, _ =>
          simp only [List.length_nil] at hlength
          omega
      | [_], hlength, _, _ =>
          simp only [List.length_cons, List.length_nil] at hlength
          omega
      | [_, _], hlength, _, _ =>
          simp only [List.length_cons, List.length_nil] at hlength
          omega
      | [_, _, _], hlength, _, _ =>
          simp only [List.length_cons, List.length_nil] at hlength
          omega

end Lib
