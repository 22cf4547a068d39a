/-
# `Lib.Crc` — cyclic redundancy checks, bit by bit and byte by byte

A reflected CRC keeps a register of `w` bits.  A bit of the message is added to
the bit that falls out of the register at its low end, and the polynomial is
added to what remains when their sum is one (`crcFeed`).  That is the definition
(`reflectedCrc`); an implementation takes a byte at a time, from a table.

Why it may: the step without input (`crcShift`) is linear in exclusive or, and
only shifts a register whose low bit is clear.  So the bits of a byte can all be
added before the eight steps (`foldl_crcFeed`), and of the eight steps only what
they do to the low byte needs a table (`foldl_bitsLow`).
-/
import Mathlib

namespace Lib

section Register

variable {w : Nat}

/-- A step without input. -/
def crcShift (polynomial register : BitVec w) : BitVec w :=
  if register.getLsbD 0 then (register >>> 1) ^^^ polynomial else register >>> 1

/-- A bit of the message goes in. -/
def crcFeed (polynomial register : BitVec w) (bit : Bool) : BitVec w :=
  if register.getLsbD 0 ^^ bit then (register >>> 1) ^^^ polynomial
  else register >>> 1

/-- The bits of a byte, the low one first. -/
def bitsLow (byte : UInt8) : List Bool :=
  (List.range 8).map byte.toBitVec.getLsbD

/-- The reflected CRC of a message: the register starts with ones, and is
complemented in the end. -/
def reflectedCrc (polynomial : BitVec w) (message : List UInt8) : BitVec w :=
  ~~~ (message.flatMap bitsLow).foldl (crcFeed polynomial) (BitVec.allOnes w)

/-! ## The step is linear -/

variable {polynomial : BitVec w}

theorem crcShift_xor (a b : BitVec w) :
    crcShift polynomial (a ^^^ b) =
      crcShift polynomial a ^^^ crcShift polynomial b := by
  simp only [crcShift, BitVec.getLsbD_xor, BitVec.ushiftRight_xor_distrib]
  cases a.getLsbD 0 with
  | false =>
      cases b.getLsbD 0 with
      | false => rfl
      | true => exact BitVec.xor_assoc _ _ _
  | true =>
      cases b.getLsbD 0 with
      | false =>
          show a >>> 1 ^^^ b >>> 1 ^^^ polynomial =
            a >>> 1 ^^^ polynomial ^^^ b >>> 1
          rw [BitVec.xor_assoc, BitVec.xor_assoc, BitVec.xor_comm polynomial]
      | true =>
          show a >>> 1 ^^^ b >>> 1 =
            a >>> 1 ^^^ polynomial ^^^ (b >>> 1 ^^^ polynomial)
          rw [BitVec.xor_assoc, BitVec.xor_comm (b >>> 1),
            ← BitVec.xor_assoc polynomial, BitVec.xor_self,
            BitVec.zero_xor]

theorem crcShift_iterate_xor (n : Nat) (a b : BitVec w) :
    (crcShift polynomial)^[n]
    (a ^^^ b) =
      (crcShift polynomial)^[n] a ^^^ (crcShift polynomial)^[n] b := by
  induction n generalizing a b with
  | zero => rfl
  | succ n ih =>
      rw [Function.iterate_succ_apply, Function.iterate_succ_apply,
        Function.iterate_succ_apply, crcShift_xor, ih]

theorem crcShift_iterate_clear {n : Nat} {register : BitVec w}
    (h : ∀ i < n, register.getLsbD i = false) :
    (crcShift polynomial)^[n] register = register >>> n := by
  induction n with
  | zero => rfl
  | succ n ih =>
      have hlow : (register >>> n).getLsbD 0 = false := by
        rw [BitVec.getLsbD_ushiftRight]
        exact h n (Nat.lt_succ_self n)
      rw [Function.iterate_succ_apply',
        ih fun i hi => h i (Nat.lt_succ_of_lt hi), crcShift, hlow,
        BitVec.shiftRight_add]
      rfl

/-! ## Eight steps at once -/

/-- The `n` low bits of a register. -/
def lowBits (n : Nat) (register : BitVec w) : BitVec w :=
  (register.setWidth n).setWidth w

theorem getLsbD_lowBits (n : Nat) (register : BitVec w) (i : Nat) :
    (lowBits n register).getLsbD i =
      (decide (i < n) && register.getLsbD i) := by
  rw [lowBits, BitVec.getLsbD_setWidth, BitVec.getLsbD_setWidth]
  by_cases hi : i < w
  · rw [decide_eq_true hi, Bool.true_and]
  · rw [BitVec.getLsbD_of_ge register i (Nat.le_of_not_lt hi), Bool.and_false,
      Bool.and_false]

theorem crcShift_iterate (n : Nat) (register : BitVec w) :
    (crcShift polynomial)^[n] register =
      (crcShift polynomial)^[n] (lowBits n register) ^^^ (register >>> n) := by
  have hsplit :
      register = lowBits n register ^^^ (register ^^^ lowBits n register) := by
    rw [BitVec.xor_comm register, ← BitVec.xor_assoc, BitVec.xor_self,
      BitVec.zero_xor]
  have hclear : ∀ i < n, (register ^^^ lowBits n register).getLsbD i =
      false := by
    intro i hi
    rw [BitVec.getLsbD_xor, getLsbD_lowBits, decide_eq_true hi, Bool.true_and,
      Bool.xor_self]
  have hhigh : (register ^^^ lowBits n register) >>> n = register >>> n := by
    apply BitVec.eq_of_getLsbD_eq
    intro i _
    have hi : ¬n + i < n := by omega
    rw [BitVec.getLsbD_ushiftRight, BitVec.getLsbD_ushiftRight,
      BitVec.getLsbD_xor, getLsbD_lowBits,
      decide_eq_false hi, Bool.false_and, Bool.xor_false]
  conv_lhs => rw [hsplit]
  rw [crcShift_iterate_xor, crcShift_iterate_clear hclear, hhigh]

/-! ## A byte at once -/

/-- One bit, at a place. -/
def bitAt (k : Nat) (bit : Bool) : BitVec w :=
  (BitVec.ofBool bit).setWidth w <<< k

theorem getLsbD_bitAt (k : Nat) (bit : Bool) (i : Nat) :
    (bitAt k bit : BitVec w).getLsbD i =
      (decide (i < w) && (decide (i = k) && bit)) := by
  rw [bitAt, BitVec.getLsbD_shiftLeft, BitVec.getLsbD_setWidth,
    BitVec.getLsbD_ofBool]
  by_cases hi : i < w
  · have hsub : i - k < w := by omega
    by_cases hik : i = k
    · subst hik
      simp [hi, Nat.zero_lt_of_lt hi]
    · by_cases hlt : i < k
      · simp [hlt, hik]
      · have hpos : ¬i - k = 0 := by omega
        simp [hik, hpos]
  · simp [hi]

theorem crcFeed_eq (hw : 0 < w) (register : BitVec w) (bit : Bool) :
    crcFeed polynomial register bit =
      crcShift polynomial (register ^^^ bitAt 0 bit) := by
  have hlow :
      (register ^^^ bitAt 0 bit).getLsbD 0 = (register.getLsbD 0 ^^ bit) := by
    rw [BitVec.getLsbD_xor, getLsbD_bitAt, decide_eq_true hw]
    rfl
  have hshift : (register ^^^ bitAt 0 bit) >>> 1 = register >>> 1 := by
    apply BitVec.eq_of_getLsbD_eq
    intro i _
    have hi : ¬1 + i = 0 := by omega
    rw [BitVec.getLsbD_ushiftRight, BitVec.getLsbD_ushiftRight,
      BitVec.getLsbD_xor, getLsbD_bitAt,
      decide_eq_false hi, Bool.false_and, Bool.and_false, Bool.xor_false]
  rw [crcShift, hlow, hshift, crcFeed]

theorem bitAt_shiftRight {k : Nat} (hk : k < w) (bit : Bool) :
    (bitAt k bit : BitVec w) >>> k = bitAt 0 bit := by
  apply BitVec.eq_of_getLsbD_eq
  intro i hi
  rw [BitVec.getLsbD_ushiftRight, getLsbD_bitAt, getLsbD_bitAt]
  by_cases hzero : i = 0
  · simp [hzero, hk, Nat.zero_lt_of_lt hk]
  · simp [hzero]

theorem lowBits_succ {k : Nat} (hk : k < w) (word : BitVec w) :
    lowBits (k + 1) word = lowBits k word ^^^ bitAt k (word.getLsbD k) := by
  apply BitVec.eq_of_getLsbD_eq
  intro i hi
  rw [BitVec.getLsbD_xor, getLsbD_lowBits, getLsbD_lowBits, getLsbD_bitAt,
    decide_eq_true hi, Bool.true_and]
  rcases Nat.lt_trichotomy i k with hlt | rfl | hgt
  · have hne : ¬i = k := by omega
    simp [hlt, hne, Nat.lt_succ_of_lt hlt]
  · simp
  · have hne : ¬i = k := by omega
    have hnot : ¬i < k := by omega
    have hnot' : ¬i < k + 1 := by omega
    simp [hne, hnot, hnot']

/-- Bits that are fed one by one can be added at once: none of them is moved
before its turn. -/
theorem foldl_crcFeed (word register : BitVec w) : ∀ {n : Nat}, n ≤ w →
    ((List.range n).map word.getLsbD).foldl (crcFeed polynomial) register =
      (crcShift polynomial)^[n] (register ^^^ lowBits n word)
  | 0, _ => by
      have hzero : lowBits 0 word = 0#w := by
        apply BitVec.eq_of_getLsbD_eq
        intro i _
        rw [getLsbD_lowBits, decide_eq_false (Nat.not_lt_zero i),
          Bool.false_and, BitVec.getLsbD_zero]
      rw [hzero, BitVec.xor_zero]
      rfl
  | n + 1, h => by
      have hlow : ∀ i < n, (bitAt n (word.getLsbD n) : BitVec w).getLsbD i =
          false := by
        intro i hi
        have hne : ¬i = n := by omega
        rw [getLsbD_bitAt, decide_eq_false hne, Bool.false_and, Bool.and_false]
      rw [List.range_succ, List.map_append, List.foldl_append,
        foldl_crcFeed word register (Nat.le_of_succ_le h)]
      show crcFeed polynomial _ (word.getLsbD n) = _
      rw [crcFeed_eq (Nat.zero_lt_of_lt h), Function.iterate_succ_apply',
        lowBits_succ h, ← BitVec.xor_assoc,
        crcShift_iterate_xor n (register ^^^ lowBits n word),
          crcShift_iterate_clear hlow, bitAt_shiftRight h]

/-- Feeding a byte: eight steps after it was added to the register, of which a
table holds the part of the low byte. -/
theorem foldl_bitsLow (hw : 8 ≤ w) (register : BitVec w) (byte : UInt8) :
    (bitsLow byte).foldl (crcFeed polynomial) register =
      (crcShift polynomial)^[8]
      ((register.setWidth 8 ^^^ byte.toBitVec).setWidth w) ^^^
        (register >>> 8) := by
  have hbits :
      bitsLow byte = (List.range 8).map (byte.toBitVec.setWidth w).getLsbD := by
    refine List.map_congr_left fun i hi => ?_
    have hi := List.mem_range.mp hi
    rw [BitVec.getLsbD_setWidth, decide_eq_true (Nat.lt_of_lt_of_le hi hw),
      Bool.true_and]
  have hword :
      lowBits 8 (byte.toBitVec.setWidth w) = byte.toBitVec.setWidth w := by
    apply BitVec.eq_of_getLsbD_eq
    intro i hi
    rw [getLsbD_lowBits, BitVec.getLsbD_setWidth]
    by_cases hlt : i < 8
    · rw [decide_eq_true hlt, Bool.true_and]
    · rw [BitVec.getLsbD_of_ge byte.toBitVec i (Nat.le_of_not_lt hlt),
        Bool.and_false, Bool.and_false]
  have hlow : lowBits 8 (register ^^^ byte.toBitVec.setWidth w) =
      (register.setWidth 8 ^^^ byte.toBitVec).setWidth w := by
    apply BitVec.eq_of_getLsbD_eq
    intro i hi
    rw [getLsbD_lowBits, BitVec.getLsbD_xor, BitVec.getLsbD_setWidth,
      BitVec.getLsbD_setWidth, BitVec.getLsbD_xor,
      BitVec.getLsbD_setWidth, decide_eq_true hi, Bool.true_and, Bool.true_and]
    by_cases hlt : i < 8
    · rw [decide_eq_true hlt, Bool.true_and, Bool.true_and]
    · rw [BitVec.getLsbD_of_ge byte.toBitVec i (Nat.le_of_not_lt hlt),
        decide_eq_false hlt, Bool.false_and,
        Bool.false_and, Bool.xor_false]
  have hhigh :
      (register ^^^ byte.toBitVec.setWidth w) >>> 8 = register >>> 8 := by
    apply BitVec.eq_of_getLsbD_eq
    intro i _
    have hge : 8 ≤ 8 + i := by omega
    rw [BitVec.getLsbD_ushiftRight, BitVec.getLsbD_ushiftRight,
      BitVec.getLsbD_xor, BitVec.getLsbD_setWidth,
      BitVec.getLsbD_of_ge byte.toBitVec _ hge, Bool.and_false, Bool.xor_false]
  rw [hbits, foldl_crcFeed _ _ hw, hword, crcShift_iterate, hlow, hhigh]

end Register

end Lib
