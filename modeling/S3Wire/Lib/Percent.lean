/-
# `Lib.Percent` — percent-encoding over a set of bytes that stand for themselves

An encoder is given by the set `safe` of bytes it copies; every other byte
becomes `%` and two upper-case hexadecimal digits.  A set is admissible
(`SafeSet`) when its bytes are ASCII and none of them is `%`.  For every
admissible set the strict decoder undoes the encoder (`percentDecode_encode`),
so the encoder is injective, and the only characters it emits are the safe
ones, `%` and upper-case hex digits (`mem_percentEncode`) — which is what keeps
a separator out of an encoded field.

The decoder is strict: a `%` that is not followed by two hex digits is an error,
and every other character stands for its own UTF-8 bytes.
-/
import S3Wire.Lib.Text

namespace Lib

theorem forall_byte {P : UInt8 → Prop} (h : ∀ n < 256, P (UInt8.ofNat n))
    (b : UInt8) : P b := by
  have hb := h b.toNat b.toNat_lt
  rwa [UInt8.ofNat_toNat] at hb

/-! ## Hexadecimal digits -/

/-- The upper-case digit table. -/
def upperHex : List Char := "0123456789ABCDEF".toList

/-- The digit at a table index. -/
def hexDigit (n : Nat) : Char := upperHex.getD n '0'

/-- The value of a hexadecimal digit of either case. -/
def hexValue (c : Char) : Option Nat :=
  if '0' ≤ c ∧ c ≤ '9' then some (c.toNat - '0'.toNat)
  else if 'a' ≤ c ∧ c ≤ 'f' then some (c.toNat - 'a'.toNat + 10)
  else if 'A' ≤ c ∧ c ≤ 'F' then some (c.toNat - 'A'.toNat + 10)
  else none

theorem hexValue_hexDigit : ∀ n < 16, hexValue (hexDigit n) = some n := by
    decide

theorem hexDigit_mem : ∀ n < 16, hexDigit n ∈ upperHex := by decide

/-- A hexadecimal digit is ASCII, of either case, and never a `%`. -/
theorem hexValue_some {c : Char} {n : Nat} (h : hexValue c = some n) :
    n < 16 ∧ c.toNat ≤ 127 := by
  unfold hexValue at h
  have e0 : '0'.toNat = 48 := rfl
  have e9 : '9'.toNat = 57 := rfl
  have ea : 'a'.toNat = 97 := rfl
  have ef : 'f'.toNat = 102 := rfl
  have eA : 'A'.toNat = 65 := rfl
  have eF : 'F'.toNat = 70 := rfl
  split at h
  next hc =>
      have h₁ : '0'.toNat ≤ c.toNat := hc.1
      have h₂ : c.toNat ≤ '9'.toNat := hc.2
      cases h
      omega
  next =>
      split at h
      next hc =>
          have h₁ : 'a'.toNat ≤ c.toNat := hc.1
          have h₂ : c.toNat ≤ 'f'.toNat := hc.2
          cases h
          omega
      next =>
          split at h
          next hc =>
              have h₁ : 'A'.toNat ≤ c.toNat := hc.1
              have h₂ : c.toNat ≤ 'F'.toNat := hc.2
              cases h
              omega
          next => cases h

/-! ## Encoding and decoding -/

/-- `%` and the two digits of a byte. -/
def percentTriplet (b : UInt8) : List Char :=
  ['%', hexDigit (b >>> 4).toNat, hexDigit (b &&& 0x0f).toNat]

/-- Copy the safe bytes, escape the others. -/
def percentEncode (safe : UInt8 → Bool) (bs : List UInt8) : List Char :=
  bs.flatMap fun b => if safe b then [Char.ofNat b.toNat] else percentTriplet b

/-- The strict decoder. -/
def percentDecode : List Char → Option (List UInt8)
  | [] => some []
  | c :: rest =>
      if c = '%' then
        match rest with
        | h :: l :: tail =>
            match hexValue h, hexValue l with
            | some hi, some lo =>
                (percentDecode tail).map (UInt8.ofNat (16 * hi + lo) :: ·)
            | _, _ => none
        | _ => none
      else (percentDecode rest).map (String.utf8EncodeChar c ++ ·)

/-- A set of bytes an encoder may copy. -/
def SafeSet (safe : UInt8 → Bool) : Prop :=
  ∀ b, safe b = true → b.toNat ≤ 127 ∧ Char.ofNat b.toNat ≠ '%'

theorem percentDecode_ne {c : Char} (h : c ≠ '%') (rest : List Char) :
    percentDecode (c :: rest) =
      (percentDecode rest).map (String.utf8EncodeChar c ++ ·) := by
  rw [percentDecode.eq_def]
  exact if_neg h

theorem percentDecode_triplet (h l : Char) (rest : List Char) {hi lo : Nat}
    (hh : hexValue h = some hi) (hl : hexValue l = some lo) :
    percentDecode ('%' :: h :: l :: rest) =
      (percentDecode rest).map (UInt8.ofNat (16 * hi + lo) :: ·) := by
  simp [percentDecode, hh, hl]

theorem nibbles (b : UInt8) : (b >>> 4).toNat < 16 ∧ (b &&& 0x0f).toNat < 16 ∧
    UInt8.ofNat (16 * (b >>> 4).toNat + (b &&& 0x0f).toNat) = b := by
  have hb : b.toNat < 256 := b.toNat_lt
  have hhi : (b >>> 4).toNat = b.toNat / 16 := by
    simp [UInt8.toNat_shiftRight, Nat.shiftRight_eq_div_pow]
  have hlo : (b &&& 0x0f).toNat = b.toNat % 16 := by
    rw [UInt8.toNat_and]
    exact Nat.and_two_pow_sub_one_eq_mod b.toNat 4
  refine ⟨by omega, by omega, ?_⟩
  rw [hhi, hlo, show 16 * (b.toNat / 16) + b.toNat % 16 = b.toNat by omega]
  simp

theorem percentDecode_percentTriplet (b : UInt8) (rest : List Char) :
    percentDecode (percentTriplet b ++ rest) =
      (percentDecode rest).map (b :: ·) := by
  obtain ⟨hhi, hlo, hb⟩ := nibbles b
  have h :=
    percentDecode_triplet (hexDigit (b >>> 4).toNat)
      (hexDigit (b &&& 0x0f).toNat) rest
    (hexValue_hexDigit _ hhi) (hexValue_hexDigit _ hlo)
  rw [hb] at h
  exact h

theorem utf8EncodeChar_ofNat {b : UInt8} (h : b.toNat ≤ 127) :
    String.utf8EncodeChar (Char.ofNat b.toNat) = [b] := by
  have hv : (Char.ofNat b.toNat).toNat = b.toNat := by
    rw [Char.toNat_ofNat, if_pos (Or.inl (by omega))]
  rw [utf8EncodeChar_ascii (by omega), hv]
  simp

/-- The decoder reads an encoded field back, whatever follows it. -/
theorem percentDecode_encode_append {safe : UInt8 → Bool} (hs : SafeSet safe) :
    ∀ (bs : List UInt8) (rest : List Char),
      percentDecode (percentEncode safe bs ++ rest) =
        (percentDecode rest).map (bs ++ ·)
  | [], rest => by simp [percentEncode]
  | b :: bs, rest => by
      have ih := percentDecode_encode_append hs bs rest
      unfold percentEncode at ih ⊢
      rw [List.flatMap_cons, List.append_assoc]
      by_cases hb : safe b = true
      · obtain ⟨hlt, hne⟩ := hs b hb
        rw [if_pos hb, List.singleton_append, percentDecode_ne hne, ih,
          utf8EncodeChar_ofNat hlt]
        simp [Function.comp_def]
      · rw [if_neg hb, percentDecode_percentTriplet, ih]
        simp [Function.comp_def]

theorem percentDecode_encode {safe : UInt8 → Bool} (hs : SafeSet safe)
    (bs : List UInt8) :
    percentDecode (percentEncode safe bs) = some bs := by
  have h := percentDecode_encode_append hs bs []
  simpa [percentDecode] using h

theorem foldl_percentEncode {safe : UInt8 → Bool}
    {push : List Char → UInt8 → List Char}
    (hpush : ∀ output b, push output b =
      output ++ if safe b then [Char.ofNat b.toNat] else percentTriplet b) :
    ∀ (bs : List UInt8) (output : List Char), bs.foldl push output =
      output ++ percentEncode safe bs
  | [], output => by simp [percentEncode]
  | b :: bs, output => by
      rw [List.foldl_cons, foldl_percentEncode hpush bs, hpush,
        List.append_assoc]
      rfl

theorem percentEncode_injective {safe : UInt8 → Bool} (hs : SafeSet safe) :
    Function.Injective (percentEncode safe) := by
  intro a b h
  have ha := percentDecode_encode hs a
  rw [h, percentDecode_encode hs b] at ha
  exact (Option.some.inj ha).symm

theorem mem_percentTriplet {b : UInt8} {c : Char} (h : c ∈ percentTriplet b) :
    c = '%' ∨ c ∈ upperHex := by
  obtain ⟨hhi, hlo, -⟩ := nibbles b
  simp only [percentTriplet, List.mem_cons, List.not_mem_nil, or_false] at h
  rcases h with rfl | rfl | rfl
  · exact Or.inl rfl
  · exact Or.inr (hexDigit_mem _ hhi)
  · exact Or.inr (hexDigit_mem _ hlo)

theorem mem_percentEncode {safe : UInt8 → Bool} {bs : List UInt8} {c : Char}
    (h : c ∈ percentEncode safe bs) :
    (∃ b, safe b = true ∧ c = Char.ofNat b.toNat) ∨ c = '%' ∨ c ∈ upperHex := by
  obtain ⟨b, -, hc⟩ := List.mem_flatMap.mp h
  by_cases hb : safe b = true
  · rw [if_pos hb] at hc
    exact Or.inl ⟨b, hb, by simpa using hc⟩
  · rw [if_neg hb] at hc
    exact Or.inr (mem_percentTriplet hc)

end Lib
