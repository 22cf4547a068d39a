/-
# `Lib.Timespan` — a length of time on machine words

Whole seconds in a 64-bit word, and the nanoseconds left over.  A sum or a
product is taken at the width of its word, and a computation in which one does
not fit has no result (`checked`).  In the operations below every one of them
fits: what each returns is the operation on the number of nanoseconds (`value`),
cut off at the ends of the range (`saturatingSub_counts`,
`saturatingMul_counts`).
-/
import Mathlib

namespace Lib

/-- A result of `width`-bit arithmetic, where it fits. -/
def checked (width n : Nat) : Option Nat :=
  if n < 2 ^ width then some n else none

theorem checked_eq {width n : Nat} (h : n < 2 ^ width) :
    checked width n = some n := if_pos h

/-- `x << n` at 32 bits: there is no shift by the width or more. -/
def shiftLeft32 (x n : UInt32) : Option UInt32 :=
  if n < 32 then some (x <<< n) else none

theorem shiftLeft32_one {e : UInt32} (h : e.toNat ≤ 31) :
    ∃ x, shiftLeft32 1 e = some x ∧ x.toNat = 2 ^ e.toNat := by
  have hlt : e < 32 := UInt32.lt_iff_toNat_lt.mpr (Nat.lt_succ_of_le h)
  refine ⟨1 <<< e, if_pos hlt, ?_⟩
  have hpow : 2 ^ e.toNat < 2 ^ 32 :=
    Nat.pow_lt_pow_right (by decide) (Nat.lt_succ_of_le h)
  rw [UInt32.toNat_shiftLeft, Nat.mod_eq_of_lt (Nat.lt_succ_of_le h),
    UInt32.toNat_one, Nat.one_shiftLeft,
    Nat.mod_eq_of_lt hpow]

theorem toNat_min32 (x y : UInt32) : (min x y).toNat = min x.toNat y.toNat := by
  have hmin : min x y = if x ≤ y then x else y := rfl
  rw [hmin]
  split
  · next h => exact (min_eq_left (UInt32.le_iff_toNat_le.mp h)).symm
  · next h =>
      exact (min_eq_right
        (not_le.mp fun hle => h (UInt32.le_iff_toNat_le.mpr hle)).le).symm

theorem toNat_min64 (x y : UInt64) : (min x y).toNat = min x.toNat y.toNat := by
  have hmin : min x y = if x ≤ y then x else y := rfl
  rw [hmin]
  split
  · next h => exact (min_eq_left (UInt64.le_iff_toNat_le.mp h)).symm
  · next h =>
      exact (min_eq_right
        (not_le.mp fun hle => h (UInt64.le_iff_toNat_le.mpr hle)).le).symm

/-- A length of time. -/
structure Timespan where
  secs : Nat
  subsec : Nat
  secs_lt : secs < 2 ^ 64
  subsec_lt : subsec < 1000000000

namespace Timespan

variable {a b t : Timespan}

/-- The number of nanoseconds. -/
def value (t : Timespan) : Nat := t.secs * 1000000000 + t.subsec

theorem value_injective : Function.Injective value := by
  rintro ⟨s, n, hs, hn⟩ ⟨s', n', hs', hn'⟩ h
  dsimp only [value] at h
  have hsecs : s = s' := by omega
  have hsubsec : n = n' := by omega
  subst hsecs hsubsec
  rfl

/-- Seconds first, then what is left over: the order of the numbers of
nanoseconds. -/
instance : LinearOrder Timespan := LinearOrder.lift' value value_injective

theorem le_iff : a ≤ b ↔ a.value ≤ b.value := Iff.rfl

theorem lt_iff : a < b ↔ a.value < b.value := Iff.rfl

theorem value_min (a b : Timespan) : (min a b).value = min a.value b.value := by
  rcases le_total a b with h | h
  · rw [min_eq_left h, min_eq_left (le_iff.mp h)]
  · rw [min_eq_right h, min_eq_right (le_iff.mp h)]

theorem value_max (a b : Timespan) : (max a b).value = max a.value b.value := by
  rcases le_total a b with h | h
  · rw [max_eq_right h, max_eq_right (le_iff.mp h)]
  · rw [max_eq_left h, max_eq_left (le_iff.mp h)]

theorem whole_seconds : 0 < 1000000000 := by decide

def zero : Timespan := ⟨0, 0, Nat.two_pow_pos 64, whole_seconds⟩

def maximum : Timespan := ⟨2 ^ 64 - 1, 999999999, by decide, by decide⟩

theorem value_le_maximum (t : Timespan) : t.value ≤ maximum.value := by
  have hs := t.secs_lt
  have hn := t.subsec_lt
  dsimp only [value, maximum]
  omega

theorem maximum_lt : maximum.value < 2 ^ 128 := by
  norm_num [value, maximum]

theorem eq_zero_iff : t = zero ↔ t.value = 0 := value_injective.eq_iff.symm

/-! ## The operations -/

/-- The computation has a result, and it is a length of `n` nanoseconds. -/
def Counts (r : Option Timespan) (n : Nat) : Prop :=
  ∃ t, r = some t ∧ t.value = n

/-- Seconds and nanoseconds, the whole seconds of the latter carried over. -/
def new (secs nanos : Nat) : Option Timespan :=
  if h : secs + nanos / 1000000000 < 2 ^ 64 then
    some ⟨secs + nanos / 1000000000, nanos % 1000000000, h,
      Nat.mod_lt _ (by decide)⟩
  else
    none

theorem new_counts {secs nanos : Nat} (h : secs + nanos / 1000000000 < 2 ^ 64) :
    Counts (new secs nanos) (secs * 1000000000 + nanos) := by
  refine ⟨_, dif_pos h, ?_⟩
  dsimp only [value]
  omega

/-- The number of nanoseconds, computed at 128 bits. -/
def asNanos (t : Timespan) : Option Nat := do
  let whole ← checked 128 (t.secs * 1000000000)
  checked 128 (whole + t.subsec)

theorem asNanos_eq (t : Timespan) : t.asNanos = some t.value := by
  have hsum : t.value < 2 ^ 128 := t.value_le_maximum.trans_lt maximum_lt
  have hwhole : t.secs * 1000000000 < 2 ^ 128 :=
    (Nat.le_add_right _ _).trans_lt hsum
  rw [value] at hsum ⊢
  rw [asNanos, checked_eq hwhole, Option.bind_eq_bind, Option.bind_some,
    checked_eq hsum]

/-- The length of a 64-bit number of nanoseconds. -/
def fromNanos (n : UInt64) : Option Timespan :=
  new (n.toNat / 1000000000) (n.toNat % 1000000000)

theorem fromNanos_counts (n : UInt64) : Counts (fromNanos n) n.toNat := by
  have hlt := n.toNat_lt
  have h := @new_counts (n.toNat / 1000000000) (n.toNat % 1000000000) (by omega)
  rwa [Nat.div_add_mod'] at h

/-- The difference, or nothing at all. -/
def saturatingSub (a b : Timespan) : Option Timespan :=
  if b.secs ≤ a.secs then
    let secs := a.secs - b.secs
    if b.subsec ≤ a.subsec then
      new secs (a.subsec - b.subsec)
    else if 1 ≤ secs then do
      -- a second is borrowed
      let borrowed ← checked 32 (a.subsec + 1000000000)
      new (secs - 1) (borrowed - b.subsec)
    else
      some zero
  else
    some zero

theorem saturatingSub_counts (a b : Timespan) :
    Counts (saturatingSub a b) (a.value - b.value) := by
  have ha := a.subsec_lt
  have hb := b.subsec_lt
  have has := a.secs_lt
  rw [saturatingSub]
  split
  · next hsecs =>
      dsimp only
      split
      · next hsubsec =>
          have h :=
            @new_counts (a.secs - b.secs) (a.subsec - b.subsec) (by omega)
          have heq : (a.secs - b.secs) * 1000000000 + (a.subsec - b.subsec) =
              a.value - b.value := by
            dsimp only [value]
            omega
          rwa [heq] at h
      · next hsubsec =>
          split
          · next hborrow =>
              have hfits : a.subsec + 1000000000 < 2 ^ 32 := by omega
              rw [checked_eq hfits, Option.bind_eq_bind, Option.bind_some]
              have h :=
                @new_counts (a.secs - b.secs - 1)
                  (a.subsec + 1000000000 - b.subsec) (by omega)
              have heq :
                  (a.secs - b.secs - 1) * 1000000000 +
                    (a.subsec + 1000000000 - b.subsec) =
                  a.value - b.value := by
                dsimp only [value]
                omega
              rwa [heq] at h
          · next hborrow =>
              refine ⟨zero, rfl, ?_⟩
              dsimp only [value, zero]
              omega
  · next hsecs =>
      refine ⟨zero, rfl, ?_⟩
      dsimp only [value, zero]
      omega

/-- The product, or the longest there is. -/
def saturatingMul (t : Timespan) (n : UInt32) : Option Timespan := do
  let totalNanos ← checked 64 (t.subsec * n.toNat)
  let extraSecs := totalNanos / 1000000000
  let nanos := totalNanos % 1000000000
  match checked 64 (t.secs * n.toNat) with
  | some secs =>
      match checked 64 (secs + extraSecs) with
      | some secs => new secs nanos
      | none => some maximum
  | none => some maximum

theorem value_mul (t : Timespan) (n : Nat) :
    t.value * n =
      (t.secs * n + t.subsec * n / 1000000000) * 1000000000 + t.subsec * n %
        1000000000 := by
  have hvalue : t.value * n = t.secs * n * 1000000000 + t.subsec * n := by
    rw [value]
    ring
  rw [hvalue, Nat.add_mul, Nat.add_assoc, Nat.div_add_mod']

theorem maximum_le_of_secs {secs nanos : Nat} (h : 2 ^ 64 ≤ secs) :
    maximum.value ≤ secs * 1000000000 + nanos := by
  dsimp only [value, maximum]
  omega

theorem saturatingMul_counts (t : Timespan) (n : UInt32) :
    Counts (saturatingMul t n) (min (t.value * n.toNat) maximum.value) := by
  have hsub : t.subsec * n.toNat < 2 ^ 64 := by
    have h := Nat.mul_lt_mul'' t.subsec_lt n.toNat_lt
    omega
  rw [saturatingMul, checked_eq hsub]
  dsimp only [Option.bind_eq_bind, Option.bind_some]
  rw [value_mul]
  generalize t.secs * n.toNat = secs
  generalize t.subsec * n.toNat = total at hsub ⊢
  have hcut : 2 ^ 64 ≤ secs + total / 1000000000 →
      Counts (some maximum)
          (min ((secs + total / 1000000000) * 1000000000 + total % 1000000000)
              maximum.value) := by
    intro hlong
    exact ⟨maximum, rfl, (min_eq_right (maximum_le_of_secs hlong)).symm⟩
  rcases Nat.lt_or_ge secs (2 ^ 64) with hsecs | hsecs
  · rw [checked_eq hsecs]
    dsimp only
    rcases Nat.lt_or_ge (secs + total / 1000000000) (2 ^ 64) with hsum | hsum
    · rw [checked_eq hsum]
      dsimp only
      have hmod : total % 1000000000 < 1000000000 := Nat.mod_lt _ (by decide)
      obtain ⟨r, hr, hvalue⟩ :=
        @new_counts (secs + total / 1000000000) (total % 1000000000)
        (by rwa [Nat.div_eq_of_lt hmod, Nat.add_zero])
      refine ⟨r, hr, hvalue.trans (min_eq_left ?_).symm⟩
      rw [← hvalue]
      exact value_le_maximum r
    · rw [checked, if_neg (Nat.not_lt.mpr hsum)]
      exact hcut hsum
  · rw [checked, if_neg (Nat.not_lt.mpr hsecs)]
    exact hcut (hsecs.trans (Nat.le_add_right _ _))

end Timespan

end Lib
