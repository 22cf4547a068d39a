/-
# `S3Wire.Client.MultipartUpload.Source` — the prepared source and its parts

`PreparedMultipartSource` of `src/client/multipart_upload.rs`.  A source is a
buffer in memory or a private snapshot of a file; either way it is a finite byte
string whose length fits 64 bits, and part `i` is the slice of `part_size` bytes
at offset `(i - 1) * part_size`, cut short at the end.  Reading the snapshot at
a range returns the bytes of the range or fails at the end of the file.  `usize`
has 64 bits here.

A slice out of bounds would be a panic, not an error, so `readPart` has both
outcomes; `readPart_eq` says that neither occurs for the parts of the count.
-/
import S3Wire.Lib.Slice
import S3Wire.Operation.Multipart

namespace S3Wire

/-- A source whose length is known: bytes in memory, or a file as it was
opened. -/
inductive PreparedMultipartSource where
  | bytes (buffer : Buffer)
  | file (snapshot : FileSnapshot)
  deriving DecidableEq

/-- A read ends in the bytes, in an error, or in a panic of the slice. -/
inductive ReadFault where
  | panic
  | error (e : S3Error)

/-- `u64::div_ceil`. -/
def divCeil (a b : Nat) : Nat := (a + b - 1) / b

namespace PreparedMultipartSource

/-- The bytes the source stands for. -/
def content : PreparedMultipartSource → Bytes
  | .bytes buffer => buffer.bytes
  | .file snapshot => snapshot.contents.bytes

theorem content_bounded (s : PreparedMultipartSource) :
    s.content.length < 2 ^ 64 := by
  cases s with
  | bytes buffer => exact buffer.bounded
  | file snapshot => exact snapshot.contents.bounded

/-- The length of the source, as far as the file tells it. -/
def length : PreparedMultipartSource → Except S3Error Nat
  | .bytes buffer =>
      if buffer.bytes.length < 2 ^ 64 then .ok buffer.bytes.length
      else .error
        (S3Error.configuration "multipart byte length does not fit in u64")
  | .file snapshot => .ok snapshot.length

/-- How many parts the source makes; more than the protocol allows is an
error. -/
def partCount (s : PreparedMultipartSource) (partSize : Nat) :
    Except S3Error Nat :=
  match s.length with
  | .error e => .error e
  | .ok length =>
      if length = 0 then
        .error (S3Error.configuration
          "managed multipart uploads require a non-empty source")
      else
        let count := divCeil length partSize
        if count > PartNumber.max then
          .error (S3Error.configuration
            "multipart source exceeds the configured 10,000-part limit")
        else if count < 2 ^ 16 then .ok count
        else .error
          (S3Error.configuration "multipart part count does not fit in u16")

/-- The last `match` of `read_part`. -/
def readSlice (s : PreparedMultipartSource) (offset length : Nat) :
    Except ReadFault Bytes :=
  match s with
  | .bytes buffer =>
      if offset + length ≤ buffer.bytes.length then
        .ok ((buffer.bytes.drop offset).take length)
      else .error .panic
  | .file snapshot => (snapshot.readRange offset length).mapError .error

/-- The bytes of a part: its own range of the source, cut at the end. -/
def readPart (s : PreparedMultipartSource) (partSize partNumber : Nat) :
    Except ReadFault Bytes :=
  if partNumber = 0 then .error .panic
  else
    match checkedMul64 (partNumber - 1) partSize with
    | none =>
        .error (.error (S3Error.integrity "multipart part offset overflow"))
    | some offset =>
        match s.length with
        | .error e => .error (.error e)
        | .ok total =>
            if total < offset then
              .error (.error
                (S3Error.integrity
                  "multipart part offset exceeds source length"))
            else s.readSlice offset (min (total - offset) partSize)

theorem length_eq (s : PreparedMultipartSource) :
    s.length = .ok s.content.length := by
  cases s with
  | bytes buffer =>
      rw [length, if_pos buffer.bounded]
      rfl
  | file snapshot => rfl

theorem readSlice_eq {s : PreparedMultipartSource} {offset length : Nat}
    (h : offset + length ≤ s.content.length) :
    s.readSlice offset length = .ok ((s.content.drop offset).take length) := by
  cases s with
  | bytes buffer =>
      have h' : offset + length ≤ buffer.bytes.length := h
      rw [readSlice, if_pos h']
      rfl
  | file snapshot =>
      have h' : offset + length ≤ snapshot.contents.bytes.length := h
      rw [readSlice, FileSnapshot.readRange, if_pos h']
      rfl

theorem divCeil_spec {a b : Nat} (ha : 0 < a) (hb : 0 < b) :
    0 < divCeil a b ∧ (divCeil a b - 1) * b < a ∧ a ≤ divCeil a b * b := by
  have hdiv : divCeil a b = (a - 1) / b + 1 := by
    unfold divCeil
    rw [show a + b - 1 = a - 1 + b by omega, Nat.add_div_right _ hb]
  have hle := Nat.div_mul_le_self (a - 1) b
  have hlt : a - 1 < ((a - 1) / b + 1) * b := by
    rw [Nat.mul_comm]
    exact Nat.lt_mul_div_succ _ hb
  rw [hdiv]
  refine ⟨Nat.succ_pos _, ?_, by omega⟩
  rw [Nat.add_sub_cancel]
  omega

/-- The count of an accepted source: the parts cover it and the last is
needed. -/
theorem partCount_ok {s : PreparedMultipartSource} {k n : Nat} (hk : 0 < k)
    (h : s.partCount k = .ok n) :
    0 < n ∧ n ≤ 10000 ∧ (n - 1) * k < s.content.length ∧
    s.content.length ≤ n * k := by
  unfold partCount at h
  rw [length_eq] at h
  simp only at h
  split at h
  next => cases h
  next hne =>
      split at h
      next => cases h
      next hmax =>
          split at h
          next =>
              cases h
              obtain ⟨hpos, hlt, hle⟩ :=
                divCeil_spec (Nat.pos_of_ne_zero hne) hk
              exact ⟨hpos, by simpa [PartNumber.max] using hmax, hlt, hle⟩
          next => cases h

theorem partCount_of_length {s : PreparedMultipartSource} {k n : Nat}
    (hlength : s.content.length = n) (hpos : n ≠ 0)
    (hle : divCeil n k ≤ 10000) :
    s.partCount k = .ok (divCeil n k) := by
  have hmax : ¬ divCeil n k > PartNumber.max := Nat.not_lt.mpr hle
  have hfits : divCeil n k < 2 ^ 16 := by omega
  unfold partCount
  rw [length_eq, hlength]
  simp only [hpos, hmax, hfits, if_false, if_true]

/-- **Every part of the count is read, exactly.**  No overflow, no read past the
end, no slice out of bounds. -/
theorem readPart_eq {s : PreparedMultipartSource} {k i : Nat} (hi : 0 < i)
    (hlt : (i - 1) * k < s.content.length) :
    s.readPart k i = .ok (Lib.piece k s.content (i - 1)) := by
  have hbound := s.content_bounded
  have hmul : checkedMul64 (i - 1) k = some ((i - 1) * k) := by
    simp only [checkedMul64]
    rw [if_pos (by omega)]
  have hne : i ≠ 0 := by omega
  have hge : ¬ s.content.length < (i - 1) * k := by omega
  have hin : (i - 1) * k + min (s.content.length - (i - 1) * k) k ≤
    s.content.length := by omega
  -- the length read is the one of the slice, so `take` with either is the same
  have htake :
      (s.content.drop ((i - 1) * k)).take
        (min (s.content.length - (i - 1) * k) k) =
      Lib.piece k s.content (i - 1) := by
    unfold Lib.piece
    rw [Nat.min_comm, ← List.length_drop, ← List.take_take, List.take_length]
  unfold readPart
  rw [if_neg hne, hmul, length_eq]
  simp only [hge, if_false]
  rw [readSlice_eq hin, htake]

end PreparedMultipartSource

theorem zeroBytes_bounded {length : Nat} (h : length < 2 ^ 64) :
    (List.replicate length (0 : UInt8)).length < 2 ^ 64 := by
  rw [List.length_replicate]
  exact h

end S3Wire
