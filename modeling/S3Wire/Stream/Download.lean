/-
# `S3Wire.Stream.Download` — download bodies with a declared length and digest

`src/stream/download.rs`.  A `ResponseStream` passes the chunks of a response
body on as they arrive, and so before it can know whether they are the whole
object.  What it owes its reader is the END: the stream ends without an error
only when the body has ended with the declared length and the declared digest,
each where there is one.

Every poll looks at two timers before it looks at the body.  A timer is the
instant at which it is due, and a poll is given the readings of the clock it
makes (`PollClock`); the idle timer is wound again by every chunk that is not
empty.  The body is the list of what its successive polls return, and silence
after that.
-/
import S3Wire.Stream.Delivery

namespace S3Wire

/-! ## The stream -/

/-- One answer of a response body. -/
inductive DownloadEvent where
  | chunk (bytes : Bytes)
  | pending
  | error (e : S3Error)
  | ended

/-- The readings of the clock in one poll: when the deadline is polled, when the
idle timer is polled, and when the idle timer is wound again. -/
structure PollClock where
  deadline : Instant
  idle : Instant
  now : Instant
  deriving DecidableEq, Repr

/-- The state of the body of a download: what is still to come, and what was
checked. -/
structure ResponseStream where
  inner : List DownloadEvent
  expectedLength : Option UInt64
  expectedSha256 : Option Bytes
  /-- What the hasher was fed, when there is one. -/
  sha256 : Option Bytes
  received : Nat
  idleTimeout : Duration
  /-- When the idle timer is due. -/
  idle : Instant
  /-- When the deadline is due. -/
  deadline : Option Instant
  finished : Bool

namespace ResponseStream

variable (sha : Sha256)

/-- A body that is checked against its declared length only. -/
def new (stream : List DownloadEvent) (expectedLength : Option UInt64)
    (idleTimeout : Duration) (now : Instant) : ResponseStream where
  inner := stream
  expectedLength := expectedLength
  expectedSha256 := none
  sha256 := none
  received := 0
  idleTimeout := idleTimeout
  idle := now + idleTimeout
  deadline := none
  finished := false

def withDeadline (stream : List DownloadEvent) (expectedLength : Option UInt64)
    (expectedSha256 : Option Bytes) (idleTimeout : Duration)
    (deadline now : Instant) :
    ResponseStream :=
  { new stream expectedLength idleTimeout now with
    expectedSha256 := expectedSha256
    sha256 := expectedSha256.map fun _ => []
    deadline := some deadline }

/-- `finished = true` and an error. -/
def fail (b : ResponseStream) (e : S3Error) : Polled × ResponseStream :=
  (.ready (some (.error e)), { b with finished := true })

/-- A chunk of the body. -/
def takeChunk (b : ResponseStream) (now : Instant) (chunk : Bytes) :
    Polled × ResponseStream :=
  if chunk.isEmpty then (.pending, b)
  else
    let b := { b with idle := now + b.idleTimeout }
    if 2 ^ 64 ≤ chunk.length then
      b.fail (S3Error.integrity "download chunk length does not fit in u64")
    else if 2 ^ 64 ≤ b.received + chunk.length then
      b.fail (S3Error.integrity "download length overflow")
    else
      let b := { b with received := b.received + chunk.length }
      if b.expectedLength.any fun expected => expected.toNat < b.received then
        b.fail (S3Error.integrity
          "download exceeded the declared content length")
      else
        (.ready (some (.ok chunk)),
          { b with sha256 := b.sha256.map fun hashed => hashed ++ chunk })

/-- The end of the body.  The hasher is consumed. -/
def takeEnd (b : ResponseStream) : Polled × ResponseStream :=
  if b.expectedLength.any fun expected => expected.toNat ≠ b.received then
    b.fail (S3Error.integrity
      "download ended before the declared content length")
  else
    match b.expectedSha256 with
    | none => (.ready none, { b with finished := true })
    | some expected =>
        let actual := sha.digest (b.sha256.getD [])
        let b := { b with sha256 := none }
        if actual = expected then (.ready none, { b with finished := true })
        else b.fail
          (S3Error.integrity
            "download bytes did not match the returned SHA-256 checksum")

/-- An answer of the body. -/
def takeEvent (b : ResponseStream) (now : Instant) : DownloadEvent →
    Polled × ResponseStream
  | .chunk bytes => b.takeChunk now bytes
  | .error e => b.fail e
  | .ended => b.takeEnd sha
  | .pending => (.pending, b)

/-- The part of `poll_next` after the timers: one poll of the body. -/
def pollInner (b : ResponseStream) (now : Instant) : Polled × ResponseStream :=
  match b.inner with
  | [] => (.pending, b)
  | event :: rest => { b with inner := rest }.takeEvent sha now event

/-- One poll: the deadline, the idle timer, then the stream. -/
def pollNext (b : ResponseStream) (clock : PollClock) :
    Polled × ResponseStream :=
  if b.finished then (.ready none, b)
  else if b.deadline.any fun due => due ≤ clock.deadline then
    b.fail (S3Error.timeout .operation
      "operation deadline expired while streaming the response body")
  else if b.idle ≤ clock.idle then
    b.fail (S3Error.timeout .responseBody
      "download body was idle past its configured timeout")
  else b.pollInner sha clock.now

/-- The answers to polls at these readings, latest first, and the stream after
them. -/
def polls : List PollClock → ResponseStream → List Polled × ResponseStream
  | [], b => ([], b)
  | clock :: earlier, b =>
      let (outs, b) := polls earlier b
      let (out, b) := b.pollNext sha clock
      (out :: outs, b)

def bytesReceived (b : ResponseStream) : Nat := b.received

end ResponseStream

/-! ## Writing a body out -/

/-- An `AsyncWrite`: what has reached it, and what it makes of the next calls.  A
`write_all` takes the chunk whole (`none`), or fails after so many bytes of
it. -/
structure Writer where
  content : Bytes
  answers : List (Option Nat)
  flushes : Bool

namespace Writer

/-- Write the whole chunk, in as many calls as it takes. -/
def writeAll (w : Writer) (chunk : Bytes) : Bool × Writer :=
  match w.answers with
  | [] => (true, { w with content := w.content ++ chunk })
  | none :: rest =>
      (true, { w with content := w.content ++ chunk, answers := rest })
  | some n :: rest =>
      (false, { w with content := w.content ++ chunk.take n, answers := rest })

theorem writeAll_true {w w' : Writer} {chunk : Bytes}
    (h : w.writeAll chunk = (true, w')) :
    w'.content = w.content ++ chunk := by
  simp only [writeAll] at h
  split at h
  · cases h
    rfl
  · cases h
    rfl
  · cases h

end Writer

/-- `ResponseStream::write_to`, over the polls the runtime makes of it: `none`
when the future is dropped after the last of them.  `written` is the count so
far. -/
def ResponseStream.writeTo (sha : Sha256) : List PollClock → ResponseStream →
    Writer → Nat →
    Option (Except S3Error Nat) × Writer
  | [], _, w, _ => (none, w)
  | clock :: later, b, w, written =>
      match b.pollNext sha clock with
      | (.pending, b) => writeTo sha later b w written
      | (.ready none, _) =>
          (some (if w.flushes then .ok written else .error S3Error.transport),
            w)
      | (.ready (some (.error e)), _) => (some (.error e), w)
      | (.ready (some (.ok chunk)), b) =>
          match w.writeAll chunk with
          | (false, w) => (some (.error S3Error.transport), w)
          | (true, w) =>
              if 2 ^ 64 ≤ chunk.length then
                (some (.error
                  (S3Error.integrity
                    "download chunk length does not fit in u64")), w)
              else if 2 ^ 64 ≤ written + chunk.length then
                (some (.error (S3Error.integrity "download length overflow")),
                  w)
              else writeTo sha later b w (written + chunk.length)

end S3Wire
