/-
# `S3Wire.Stream.Snapshot` — private copies of uploaded files

`src/stream/snapshot.rs`.  A file that is to be uploaded is first copied, read
by read, into a read-only file of its own, and every later read goes to the
copy.  So a snapshot is its bytes, and with them the digest of the same bytes if
one was asked for: `create` feeds the hasher what it writes.

What the file system does is a parameter: whether the path is a regular file,
what each read returns, and the length of the copy as it stands on disk.
-/
import S3Wire.Operation.Checksum

namespace S3Wire

/-- A byte string whose length fits 64 bits, as every `Bytes` has. -/
structure Buffer where
  bytes : Bytes
  bounded : bytes.length < 2 ^ 64
  deriving DecidableEq

/-- A read-only copy of a regular file; its `length` was checked when it was
made. -/
structure FileSnapshot where
  contents : Buffer
  sha256 : Option Bytes
  deriving DecidableEq

/-- What the file system shows while a snapshot is made.  A read that returns no
bytes is the end of the file, a read that returns `none` failed. -/
structure FileReads where
  isFile : Bool
  reads : List (Option Bytes)
  /-- The length of the copy on disk. -/
  actual : Nat

namespace FileSnapshot

def length (f : FileSnapshot) : Nat := f.contents.bytes.length

/-- The loop of `create`, with what is written so far. -/
def copy : List (Option Bytes) → Buffer → Except S3Error Buffer
  | [], written => .ok written
  | none :: _, _ => .error S3Error.transport
  | some chunk :: reads, written =>
      if chunk.isEmpty then .ok written
      else if h : (written.bytes ++ chunk).length < 2 ^ 64 then
        copy reads ⟨written.bytes ++ chunk, h⟩
      else .error (S3Error.integrity "upload file length overflow")

/-- A copy of the file, with its digest where that is asked for. -/
def create (sha : Sha256) (file : FileReads) (hash : Bool) :
    Except S3Error FileSnapshot :=
  if !file.isFile then
    .error (S3Error.configuration "upload path must identify a regular file")
  else
    match copy file.reads ⟨[], by decide⟩ with
    | .error e => .error e
    | .ok written =>
        if file.actual ≠ written.bytes.length then
          .error (S3Error.integrity
            "upload snapshot length changed while preparing")
        else .ok
          ⟨written, if hash then some (sha.digest written.bytes) else none⟩

/-- `read_exact` at an offset. -/
def readRange (f : FileSnapshot) (offset length : Nat) : Except S3Error Bytes :=
  if offset + length ≤ f.contents.bytes.length then
    .ok ((f.contents.bytes.drop offset).take length)
  else .error S3Error.transport

theorem create_sha256 {sha : Sha256} {file : FileReads} {hash : Bool}
    {f : FileSnapshot} (h : create sha file hash = .ok f) :
    f.sha256 = if hash then some (sha.digest f.contents.bytes) else none := by
  unfold create at h
  split at h
  · cases h
  · split at h
    · cases h
    · split at h
      · cases h
      · cases h
        rfl

end FileSnapshot

end S3Wire
