/-
# `S3Wire.Stream.Upload` — upload bodies with a declared length and digest

`src/stream/upload.rs`.  A request is signed with the SHA-256 of its body before
the body is sent, so the body that goes out is checked against that digest while
it is sent.  `TransportBody` hashes what it passes on and holds the last
declared bytes back until it has seen the inner stream end: a stream that turns
out too long, too short, broken or different never completes the request.

An inner stream is the list of what its successive polls return (`StreamEvent`),
and silence after that: a finite list is all that finitely many polls can see.
The hasher is the bytes it was fed.
-/
import S3Wire.Stream.Snapshot

namespace S3Wire

/-! ## The body -/

/-- One answer of the inner stream. -/
inductive StreamEvent where
  | chunk (bytes : Bytes)
  | pending
  | error
  | ended
  deriving DecidableEq, Repr

/-- One answer of the body. -/
inductive Polled where
  | pending
  | ready (frame : Option (Except S3Error Bytes))

/-- The state of a body that the transport pulls. -/
structure TransportBody where
  stream : List StreamEvent
  remaining : Nat
  expectedSha256 : Bytes
  /-- What the hasher was fed. -/
  hashed : Bytes
  finalChunk : Option Bytes
  finished : Bool

namespace TransportBody

variable (sha : Sha256)

/-- A stream with a declared length and digest. -/
def new (stream : List StreamEvent) (length : Nat) (expectedSha256 : Bytes) :
    TransportBody :=
  ⟨stream, length, expectedSha256, [], none, false⟩

def empty : TransportBody := new [.ended] 0 (sha.digest [])

/-- The assignments of every branch that ends the body. -/
def close (b : TransportBody) : TransportBody :=
  { b with finished := true, remaining := 0, finalChunk := none }

/-- An answer of the inner stream while the last declared bytes are held back.
`none` goes round the loop. -/
def takeTrailing (b : TransportBody) (final : Bytes) : StreamEvent →
    Option (Polled × TransportBody)
  | .chunk bytes =>
      if bytes.isEmpty then none
      else
        some (.ready
          (some (.error
            (S3Error.integrity "upload exceeded its declared content length"))),
          b.close)
  | .error => some (.ready (some (.error S3Error.transport)), b.close)
  | .ended =>
      if sha.digest b.hashed ≠ b.expectedSha256 then
        some (.ready (some (.error
          (S3Error.integrity
            "upload bytes did not match the signed payload digest"))), b.close)
      else some (.ready (some (.ok final)), b.close)
  | .pending => some (.pending, b)

/-- An answer of the inner stream before that. -/
def takeChunk (b : TransportBody) : StreamEvent →
    (Polled × TransportBody) ⊕ TransportBody
  | .chunk bytes =>
      if bytes.isEmpty then .inr b
      else if 2 ^ 64 ≤ bytes.length then
        .inl (.ready
          (some (.error
            (S3Error.integrity "upload chunk length does not fit in u64"))),
              b.close)
      else if bytes.length > b.remaining then
        .inl (.ready
          (some (.error
            (S3Error.integrity "upload exceeded its declared content length"))),
          b.close)
      else
        let b := { b with hashed := b.hashed ++ bytes }
        if bytes.length = b.remaining then
          .inr { b with finalChunk := some bytes }
        else .inl
          (.ready (some (.ok bytes)),
            { b with remaining := b.remaining - bytes.length })
  | .error => .inl (.ready (some (.error S3Error.transport)), b.close)
  | .ended =>
      if b.remaining ≠ 0 then
        .inl (.ready
          (some (.error
            (S3Error.integrity
              "upload ended before its declared content length"))),
          b.close)
      else if sha.digest b.hashed = b.expectedSha256 then
        .inl (.ready none, { b with finished := true })
      else
        .inl (.ready (some (.error
          (S3Error.integrity
            "upload bytes did not match the signed payload digest"))),
          { b with finished := true })
  | .pending => .inl (.pending, b)

/-- The `loop` of `poll_frame`.  Every turn takes one answer of the inner
stream. -/
def pollLoop : List StreamEvent → TransportBody → Polled × TransportBody
  | [], b => (.pending, { b with stream := [] })
  | event :: rest, b =>
      let b := { b with stream := rest }
      match b.finalChunk with
      | some final =>
          match b.takeTrailing sha final event with
          | some result => result
          | none => pollLoop rest b
      | none =>
          match b.takeChunk sha event with
          | .inl result => result
          | .inr b => pollLoop rest b

theorem pollLoop_active {sha : Sha256} {b : TransportBody} {event : StreamEvent}
    {rest : List StreamEvent} (h : b.finalChunk = none) :
    pollLoop sha (event :: rest) b =
      match takeChunk sha { b with stream := rest } event with
      | .inl result => result
      | .inr b => pollLoop sha rest b := by
  simp only [pollLoop, h]

theorem pollLoop_withheld {sha : Sha256} {b : TransportBody}
    {event : StreamEvent} {rest : List StreamEvent} {final : Bytes}
    (h : b.finalChunk = some final) :
    pollLoop sha (event :: rest) b =
      match takeTrailing sha { b with stream := rest } final event with
      | some result => result
      | none => pollLoop sha rest { b with stream := rest } := by
  simp only [pollLoop, h]

/-- One poll; a body that has ended yields nothing more. -/
def pollFrame (b : TransportBody) : Polled × TransportBody :=
  if b.finished then (.ready none, b) else pollLoop sha b.stream b

/-- `SizeHint::with_exact(self.remaining)`. -/
def sizeHint (b : TransportBody) : Nat := b.remaining

/-- The answers to `k` polls, latest first, and the body after them. -/
def polls : Nat → TransportBody → List Polled × TransportBody
  | 0, b => ([], b)
  | k + 1, b =>
      let (outs, b) := polls k b
      let (out, b) := b.pollFrame sha
      (out :: outs, b)

end TransportBody

/-! ## Prepared bodies -/

/-- The body of an upload as the caller gives it. -/
inductive UploadSource where
  | bytes (buffer : Buffer)
  | file (path : Str)
  | stream (items : List StreamEvent) (length : Nat) (bounded : length < 2 ^ 64)
      (sha256 : Bytes)

/-- The body of an upload as an attempt can open it: bytes and files again and
again, a stream once. -/
inductive PreparedSource where
  | bytes (buffer : Buffer)
  | fileSnapshot (snapshot : FileSnapshot)
  /-- A stream that has not been taken yet, or nothing. -/
  | oneShot (stream : Option (List StreamEvent))

/-- A body whose length and digest are declared. -/
structure PreparedBody where
  source : PreparedSource
  length : Nat
  bounded : length < 2 ^ 64
  sha256 : Bytes

/-- The hasher is fed a mebibyte at a time. -/
def cooperativeSha256 (sha : Sha256) (bytes : Bytes) : Bytes :=
  sha.digest (Lib.chunks (1024 * 1024) bytes).flatten

theorem cooperativeSha256_eq (sha : Sha256) (bytes : Bytes) :
    cooperativeSha256 sha bytes = sha.digest bytes := by
  rw [cooperativeSha256, Lib.flatten_chunks (by decide)]

/-- A file that each attempt can read again. -/
def prepareFile (sha : Sha256) (file : FileReads) :
    Except S3Error PreparedBody :=
  match FileSnapshot.create sha file true with
  | .error e => .error e
  | .ok snapshot =>
      match snapshot.sha256 with
      | none =>
          .error (S3Error.integrity "upload snapshot digest was not calculated")
      | some sha256 =>
          .ok ⟨.fileSnapshot snapshot, snapshot.length,
            snapshot.contents.bounded, sha256⟩

/-- `ByteStream::prepare`; `file` is what the file system shows of a path. -/
def UploadSource.prepare (sha : Sha256) (file : FileReads) : UploadSource →
    Except S3Error PreparedBody
  | .bytes buffer =>
      let sha256 := cooperativeSha256 sha buffer.bytes
      if h : buffer.bytes.length < 2 ^ 64 then
        .ok ⟨.bytes buffer, buffer.bytes.length, h, sha256⟩
      else .error
        (S3Error.configuration "in-memory body length does not fit in u64")
  | .file _ => prepareFile sha file
  | .stream items length bounded sha256 =>
      .ok ⟨.oneShot (some items), length, bounded, sha256⟩

namespace PreparedBody

def sha256Base64 (body : PreparedBody) : Str := Lib.base64Encode body.sha256

/-- The body can be opened for another attempt. -/
def isReplayable (body : PreparedBody) : Bool :=
  match body.source with
  | .oneShot _ => false
  | _ => true

/-- A body for one attempt, and what is left for the next.  `opened` is what
opening a snapshot and reading it up to the declared length gives: `none` if it
cannot be opened. -/
def requestBody (opened : Option (List StreamEvent)) (body : PreparedBody) :
    Except S3Error TransportBody × PreparedBody :=
  match body.source with
  | .bytes buffer =>
      (.ok (TransportBody.new
        [.chunk buffer.bytes, .ended] body.length body.sha256), body)
  | .fileSnapshot _ =>
      match opened with
      | none => (.error S3Error.transport, body)
      | some items =>
          (.ok (TransportBody.new items body.length body.sha256), body)
  | .oneShot none =>
      (.error (S3Error.unsupported
        "a non-replayable upload body cannot be sent twice"), body)
  | .oneShot (some items) =>
      (.ok (TransportBody.new items body.length body.sha256),
        { body with source := .oneShot none })

/-- One call after another, with what each opens. -/
def requestBodies : List (Option (List StreamEvent)) → PreparedBody →
    List (Except S3Error TransportBody)
  | [], _ => []
  | opened :: rest, body =>
      let (result, body) := body.requestBody opened
      result :: requestBodies rest body

end PreparedBody

end S3Wire
