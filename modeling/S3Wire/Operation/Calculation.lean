/-
# `S3Wire.Operation.Calculation` — the calculated checksums are the standard ones

`src/operation/checksum.rs` calculates a CRC from a table of 256 words that a
`const` loop has filled, and in the managed upload it does so 256 KiB at a time.
Neither changes the value: the CRCs are those of `Lib.reflectedCrc`
(`updateCrcState_bitwise`), and the state that is carried over the chunks is the
state over the whole (`crcOverChunks_eq`).
-/
import S3Wire.Operation.Checksum
import S3Wire.Lib.Crc
import S3Wire.Lib.Slice

namespace S3Wire

/-! ## The tables -/

section Crc

variable {w : Nat} {polynomial : BitVec w}

theorem crcBit_eq (hw : 0 < w) (value : BitVec w) :
    crcBit polynomial value = Lib.crcShift polynomial value := by
  have hone : value &&& 1 = (BitVec.ofBool (value.getLsbD 0)).setWidth w :=
    BitVec.and_one_eq_setWidth_ofBool_getLsbD
  have hzero : value &&& 1 = 0 ↔ value.getLsbD 0 = false := by
    rw [hone]
    cases value.getLsbD 0 with
    | false => simp
    | true =>
        refine iff_of_false ?_ Bool.true_eq_false.mp
        intro h
        have hbit := congrArg (fun v : BitVec w => v.getLsbD 0) h
        simp [hw] at hbit
  rw [crcBit, Lib.crcShift]
  by_cases hlow : value.getLsbD 0 = false
  · rw [if_pos (hzero.mpr hlow), hlow]
    rfl
  · rw [if_neg fun h => hlow (hzero.mp h), if_pos (Bool.not_eq_false _ ▸ hlow)]

theorem crcTable_getD (index : BitVec 8) :
    (crcTable polynomial).getD index.toNat 0 = (crcBit polynomial)^[8]
    (index.setWidth w) := by
  have hindex : index.toNat < 256 := index.isLt
  have hlength : index.toNat < (crcTable polynomial).length := by
    rw [crcTable, List.length_map, List.length_range]
    exact hindex
  rw [List.getD_eq_getElem _ _ hlength]
  simp only [crcTable, List.getElem_map, List.getElem_range, crcEntry,
    BitVec.ofNat_toNat]

theorem updateCrcByte_eq (hw : 8 ≤ w) (value : BitVec w) (byte : UInt8) :
    updateCrcByte (crcTable polynomial) value byte =
      (Lib.bitsLow byte).foldl (Lib.crcFeed polynomial) value := by
  have hbit : crcBit polynomial = Lib.crcShift polynomial :=
    funext (crcBit_eq (Nat.lt_of_lt_of_le (Nat.zero_lt_succ 7) hw))
  rw [updateCrcByte, crcTable_getD, hbit, Lib.foldl_bitsLow hw]

theorem updateCrcState_bitwise (hw : 8 ≤ w) (bytes : Bytes) (value : BitVec w) :
    updateCrcState (crcTable polynomial) value bytes =
      (bytes.flatMap Lib.bitsLow).foldl (Lib.crcFeed polynomial) value := by
  induction bytes generalizing value with
  | nil => rfl
  | cons byte bytes ih =>
      rw [List.flatMap_cons, List.foldl_append, ← updateCrcByte_eq hw, ← ih]
      rfl

/-- The check values. -/
example : crc32 (Lib.utf8 "123456789".toList) = 0xcbf43926#32 := by
    decide +kernel

example : crc64Nvme (Lib.utf8 "123456789".toList) = 0xae8b14860a799888#64 := by
    decide +kernel

/-! ## The state over pieces -/

variable (table : List (BitVec w))

theorem updateCrcState_append (value : BitVec w) (bytes bytes' : Bytes) :
    updateCrcState table value (bytes ++ bytes') =
      updateCrcState table (updateCrcState table value bytes) bytes' :=
  List.foldl_append

theorem foldl_updateCrcState (pieces : List Bytes) (value : BitVec w) :
    pieces.foldl (updateCrcState table) value =
      updateCrcState table value pieces.flatten := by
  induction pieces generalizing value with
  | nil => rfl
  | cons piece pieces ih =>
      rw [List.foldl_cons, ih, List.flatten_cons, updateCrcState_append]

end Crc

namespace Checksum

theorem chunkSize_pos : 0 < chunkSize := by decide

theorem crcOverChunks_eq {w : Nat} (table : List (BitVec w)) (bytes : Bytes) :
    crcOverChunks table bytes =
      ~~~ updateCrcState table (BitVec.allOnes w) bytes := by
  rw [crcOverChunks, foldl_updateCrcState, Lib.flatten_chunks chunkSize_pos]

theorem calculateCooperatively_eq (sha : Sha256) (algorithm : ChecksumAlgorithm)
    (bytes : Bytes) :
    calculateCooperatively sha algorithm bytes =
      calculate sha algorithm bytes := by
  cases algorithm with
  | crc32 =>
      rw [calculateCooperatively, crcOverChunks_eq]
      rfl
  | crc32c =>
      rw [calculateCooperatively, crcOverChunks_eq]
      rfl
  | crc64Nvme =>
      rw [calculateCooperatively, crcOverChunks_eq]
      rfl
  | sha1 => rfl
  | sha256 =>
      rw [calculateCooperatively, Lib.flatten_chunks chunkSize_pos]
      rfl

end Checksum

/-- The CRCs are the bitwise ones, their state is carried over a concatenation,
and the cooperative calculation has the result of the plain one. -/
theorem checksums_standard :
    (∀ bytes, crc32 bytes = Lib.reflectedCrc 0xedb88320#32 bytes ∧
      crc32c bytes = Lib.reflectedCrc 0x82f63b78#32 bytes ∧
      crc64Nvme bytes = Lib.reflectedCrc 0x9a6c9329ac4bc9b5#64 bytes) ∧
    (∀ (w : Nat) (table : List (BitVec w)) value bytes bytes',
      updateCrcState table value (bytes ++ bytes') =
      updateCrcState table (updateCrcState table value bytes) bytes') ∧
    ∀ sha algorithm bytes,
      Checksum.calculateCooperatively sha algorithm bytes =
        Checksum.calculate sha algorithm bytes := by
  have hword : 8 ≤ 32 := by decide
  have hwide : 8 ≤ 64 := by decide
  refine ⟨?_, ?_, Checksum.calculateCooperatively_eq⟩
  · intro bytes
    refine ⟨?_, ?_, ?_⟩
    · exact congrArg (~~~ ·) (updateCrcState_bitwise hword bytes _)
    · exact congrArg (~~~ ·) (updateCrcState_bitwise hword bytes _)
    · exact congrArg (~~~ ·) (updateCrcState_bitwise hwide bytes _)
  · intro w table value bytes bytes'
    exact updateCrcState_append table value bytes bytes'

end S3Wire
