/-
# `S3Wire.Operation.Checksum` — part checksums in their wire form

`src/operation/checksum.rs` and the checksum types of `src/operation/types.rs`.
The three CRCs share one table-driven update over a state of 32 or 64 bits;
SHA-256 is the digest of another library and stands as the parameter `sha256`,
whose incremental form consumes the concatenation of what it was fed.

`calculateCooperatively` is the form the managed upload uses: it feeds the state
256 KiB at a time and gives the runtime a turn in between.
-/
import S3Wire.Error
import S3Wire.Lib.Base64
import S3Wire.Lib.Sha256

namespace S3Wire

/-- The algorithms that a checksum can be computed with. -/
inductive ChecksumAlgorithm where
  | crc32
  | crc32c
  | crc64Nvme
  | sha1
  | sha256
  deriving DecidableEq, Repr

/-- Additional checksums in S3 wire encoding. -/
structure Checksum where
  crc32 : Option Str := none
  crc32c : Option Str := none
  crc64Nvme : Option Str := none
  sha1 : Option Str := none
  sha256 : Option Str := none
  deriving DecidableEq, Repr

/-- The algorithm cannot be computed by this crate. -/
structure ChecksumCalculationError where
  algorithm : ChecksumAlgorithm
  deriving DecidableEq, Repr

/-- The `Debug` name of an algorithm, as the error message shows it. -/
def ChecksumAlgorithm.debugName : ChecksumAlgorithm → Str
  | .crc32 => "Crc32"
  | .crc32c => "Crc32c"
  | .crc64Nvme => "Crc64Nvme"
  | .sha1 => "Sha1"
  | .sha256 => "Sha256"

def ChecksumCalculationError.toString (e : ChecksumCalculationError) : Str :=
  "local calculation for ".toList ++ e.algorithm.debugName ++
    " is not implemented".toList

/-! ## The CRCs -/

section Crc

variable {w : Nat}

/-- One bit of the reflected division. -/
def crcBit (polynomial value : BitVec w) : BitVec w :=
  if value &&& 1 = 0 then value >>> 1 else (value >>> 1) ^^^ polynomial

/-- One entry of the table: eight bits of division. -/
def crcEntry (polynomial : BitVec w) (index : Nat) : BitVec w :=
  (crcBit polynomial)^[8] (BitVec.ofNat w index)

/-- The remainder of each byte. -/
def crcTable (polynomial : BitVec w) : List (BitVec w) :=
  (List.range 256).map (crcEntry polynomial)

/-- One byte of the table-driven update. -/
def updateCrcByte (table : List (BitVec w)) (value : BitVec w) (byte : UInt8) :
    BitVec w :=
  let index := (value.setWidth 8 ^^^ byte.toBitVec).toNat
  table.getD index 0 ^^^ (value >>> 8)

/-- The register after some bytes. -/
def updateCrcState (table : List (BitVec w)) (value : BitVec w)
    (bytes : Bytes) : BitVec w :=
  bytes.foldl (updateCrcByte table) value

end Crc

def crc32Table : List (BitVec 32) := crcTable 0xedb88320#32
def crc32cTable : List (BitVec 32) := crcTable 0x82f63b78#32
def crc64NvmeTable : List (BitVec 64) := crcTable 0x9a6c9329ac4bc9b5#64

def crc32 (bytes : Bytes) : BitVec 32 :=
  ~~~ updateCrcState crc32Table (BitVec.allOnes 32) bytes

def crc32c (bytes : Bytes) : BitVec 32 :=
  ~~~ updateCrcState crc32cTable (BitVec.allOnes 32) bytes

def crc64Nvme (bytes : Bytes) : BitVec 64 :=
  ~~~ updateCrcState crc64NvmeTable (BitVec.allOnes 64) bytes

/-- `to_be_bytes`, for a word of `n` bytes. -/
def toBeBytes {w : Nat} (n : Nat) (value : BitVec w) : Bytes :=
  (List.range n).map fun i => UInt8.ofNat (value >>> (8 * (n - 1 - i))).toNat

theorem length_toBeBytes {w : Nat} (n : Nat) (value : BitVec w) :
    (toBeBytes n value).length = n := by
  simp [toBeBytes]

/-! ## Checksums -/

/-- The digest of another library, as far as the client relies on it. -/
structure Sha256 where
  digest : Bytes → Bytes
  length_digest : ∀ bytes, (digest bytes).length = 32

/-- The function itself, to run the model with. -/
def standardSha256 : Sha256 := ⟨Lib.sha256, Lib.length_sha256⟩

namespace Checksum

variable (sha : Sha256)

/-- The checksum of bytes in memory. -/
def calculate (algorithm : ChecksumAlgorithm) (bytes : Bytes) :
    Except ChecksumCalculationError Checksum :=
  match algorithm with
  | .crc32 =>
      .ok { crc32 :=
        some (Lib.base64Encode (toBeBytes 4 (S3Wire.crc32 bytes))) }
  | .crc32c =>
      .ok { crc32c :=
        some (Lib.base64Encode (toBeBytes 4 (S3Wire.crc32c bytes))) }
  | .crc64Nvme =>
      .ok { crc64Nvme :=
        some (Lib.base64Encode (toBeBytes 8 (S3Wire.crc64Nvme bytes))) }
  | .sha256 => .ok { sha256 := some (Lib.base64Encode (sha.digest bytes)) }
  | .sha1 => .error ⟨.sha1⟩

def chunkSize : Nat := 256 * 1024

/-- The CRC state after every chunk, with a turn of the runtime after each. -/
def crcOverChunks {w : Nat} (table : List (BitVec w)) (bytes : Bytes) :
    BitVec w :=
  ~~~ (Lib.chunks chunkSize bytes).foldl (updateCrcState table)
    (BitVec.allOnes w)

/-- The same, chunk by chunk. -/
def calculateCooperatively (algorithm : ChecksumAlgorithm) (bytes : Bytes) :
    Except ChecksumCalculationError Checksum :=
  match algorithm with
  | .crc32 =>
      .ok { crc32 :=
        some (Lib.base64Encode (toBeBytes 4 (crcOverChunks crc32Table bytes))) }
  | .crc32c =>
      .ok { crc32c :=
        some (Lib.base64Encode
          (toBeBytes 4 (crcOverChunks crc32cTable bytes))) }
  | .crc64Nvme =>
      .ok { crc64Nvme :=
        some (Lib.base64Encode
          (toBeBytes 8 (crcOverChunks crc64NvmeTable bytes))) }
  | .sha256 =>
      .ok { sha256 := some (Lib.base64Encode
        (sha.digest (Lib.chunks chunkSize bytes).flatten)) }
  | .sha1 => .error ⟨.sha1⟩

end Checksum

end S3Wire
