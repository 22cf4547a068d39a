/-
# `S3Wire.Error` — structured client errors

`src/error/mod.rs`.  A text of the program is a list of characters throughout
this development (`Str`), so that an encoder, a parser and a message filter are
all functions on lists; a string literal coerces to one.  Times are counted in
nanoseconds: an `Instant` is a reading of the monotonic clock, a `Duration` a
difference of two.

Of the fields of `S3ErrorDetails` only `source` is left out: it is a redacted
type name that no function of the client reads back.
-/
import S3Wire.Lib.Text

namespace S3Wire

/-- A Rust `String` or `&str`: its sequence of characters. -/
abbrev Str := List Char

instance : Coe String Str := ⟨String.toList⟩

/-- A Rust `Vec<u8>`, `Bytes` or `&[u8]`. -/
abbrev Bytes := List UInt8

/-- `str::len`: the number of UTF-8 bytes. -/
def Str.len (s : Str) : Nat := (Lib.utf8 s).length

/-- A length of time, in nanoseconds. -/
abbrev Duration := Nat

/-- A reading of the monotonic clock, in nanoseconds. -/
abbrev Instant := Nat

def Duration.fromSecs (seconds : Nat) : Duration := seconds * 1000000000

/-- Broad category suitable for programmatic error handling. -/
inductive ErrorCategory where
  | configuration
  | authentication
  | authorization
  | notFound
  | conflict
  | precondition
  | throttling
  | server
  | transport
  | tls
  | timeout
  | cancellation
  | invalidResponse
  | oversizedResponse
  | unsupportedOperation
  | integrity
  deriving DecidableEq, Repr

/-- Whether an operation may be retried after an error. -/
inductive RetryClassification where
  | never
  | retryable
  | throttled
  deriving DecidableEq, Repr

/-- The phase in which a timeout occurred. -/
inductive TimeoutPhase where
  | connect
  | request
  | responseBody
  | operation
  deriving DecidableEq, Repr

/-- Why a retryable request stopped without another attempt. -/
inductive RetryStopReason where
  | nonRetryable
  | nonReplayable
  | attemptsExhausted
  | elapsedLimit
  | deadline
  | retryQuota
  deriving DecidableEq, Repr

/-- A structured S3 client error. -/
structure S3Error where
  category : ErrorCategory
  code : Option Str
  status : Option Nat
  message : Str
  requestId : Option Str
  hostId : Option Str
  retry : RetryClassification
  timeoutPhase : Option TimeoutPhase
  serverTime : Option Int
  clockSkew : Option Int
  cleanupFailure : Option S3Error
  attempts : Nat
  retryStopReason : Option RetryStopReason

namespace S3Error

/-- An error with a category, a safe message and a retry classification. -/
def new (category : ErrorCategory) (message : Str)
    (retry : RetryClassification) : S3Error where
  category := category
  code := none
  status := none
  message := message
  requestId := none
  hostId := none
  retry := retry
  timeoutPhase := none
  serverTime := none
  clockSkew := none
  cleanupFailure := none
  attempts := 0
  retryStopReason := none

def configuration (message : Str) : S3Error := new .configuration message .never

def unsupported (message : Str) : S3Error :=
  new .unsupportedOperation message .never

/-- The source error leaves only a redacted marker, so it is no argument
here. -/
def transport : S3Error := new .transport "HTTP transport failed" .retryable

def timeout (phase : TimeoutPhase) (message : Str) : S3Error :=
  { new .timeout message .retryable with timeoutPhase := some phase }

def invalidResponse (message : Str) : S3Error :=
  new .invalidResponse message .never

def integrity (message : Str) : S3Error := new .integrity message .never

def cancellation (message : Str) : S3Error := new .cancellation message .never

/-- Attaches parsed S3 response metadata. -/
def withServiceDetails (e : S3Error) (code : Option Str) (status : Nat)
    (requestId hostId : Option Str) : S3Error :=
  { e with
    code := code
    status := some status
    requestId := requestId
    hostId := hostId }

/-- Attaches a cleanup error without replacing the primary failure. -/
def withCleanupFailure (e cleanup : S3Error) : S3Error :=
  { e with cleanupFailure := some cleanup }

/-- Attaches the server time and the measured local clock offset, in seconds. -/
def withClockSkew (e : S3Error) (serverTime localTime : Int) : S3Error :=
  { e with
    serverTime := some serverTime
    clockSkew := some (serverTime - localTime) }

/-- The error with what the loop knows when it gives up. -/
def withRetryContext (e : S3Error) (attempts : Nat) (reason : RetryStopReason) :
    S3Error :=
  { e with attempts := attempts, retryStopReason := some reason }

end S3Error

end S3Wire
