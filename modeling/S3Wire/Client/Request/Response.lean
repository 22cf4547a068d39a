/-
# `S3Wire.Client.Request.Response` — collecting a response, and the errors made of it

`src/client/request/response.rs`.  A body is collected frame by frame under two
deadlines, the one of the operation and one that every frame with data moves on;
an error of the service is made of the status, the headers and the parsed
document, none of which is trusted with more than a short plain text.

Two tables of other libraries are parameters (`HttpText`): the reason phrases of
the status codes, and the dates of HTTP.
-/
import S3Wire.Http
import S3Wire.Operation.Multipart
import S3Wire.Client.Headers
import S3Wire.Signing.Canonical
import S3Wire.Protocol.Completion

namespace S3Wire

/-! ## Responses -/

/-- A response up to its body: `sizeUpper` is what the body says of its
length. -/
structure ResponseHead where
  status : Nat
  headers : HeaderMap
  sizeUpper : Option Nat

/-- `StatusCode::is_success`. -/
def ResponseHead.isSuccess (response : ResponseHead) : Bool :=
  200 ≤ response.status && response.status < 300

/-- Two functions of the HTTP libraries that the code calls. -/
structure HttpText where
  /-- The time of a date, in nanoseconds since the epoch. -/
  parseHttpDate : Str → Option Int
  canonicalReason : Nat → Option Str

/-- The `Display` form of a status code. -/
def HttpText.status (text : HttpText) (status : Nat) : Str :=
  decimal status ++
    ' ' :: (text.canonicalReason status).getD "<unknown status code>"

/-! ## Collecting a body -/

def operationTimeout : S3Error :=
  S3Error.timeout .operation "S3 operation exceeded its overall deadline"

def idleTimeout : S3Error :=
  S3Error.timeout .responseBody
    "response body was idle past its configured timeout"

def oversizedResponse (maximum : Nat) : S3Error :=
  S3Error.new .oversizedResponse
    ("response exceeded the configured ".toList ++ decimal maximum ++
      "-byte limit".toList) .never

/-- What a poll of a response body yields. -/
inductive BodyFrame where
  | data (bytes : Bytes)
  | trailers
  | error
  | ended
  deriving DecidableEq

/-- One turn of the loop: how long it takes to look at each deadline, to get an
answer (`none` when the earlier deadline fires first), and to set the idle
deadline anew. -/
structure FrameTurn where
  beforeDeadline : Duration
  beforeIdle : Duration
  waiting : Duration
  frame : Option BodyFrame
  afterData : Duration
  deriving DecidableEq

/-- The loop of `collect_incoming`: its result and the clock after it.  `none`
when the turns end first, and when a deadline fires that has not passed. -/
def collectFrames (maximum : Nat) (idle : Duration) (deadline : Instant) :
    List FrameTurn → Bytes → Instant → Instant →
    Option (Except S3Error Bytes × Instant)
  | [], _, _, _ => none
  | turn :: rest, output, idleDeadline, clock =>
      let clock := clock + turn.beforeDeadline
      if deadline ≤ clock then some (.error operationTimeout, clock)
      else
        let clock := clock + turn.beforeIdle
        if idleDeadline ≤ clock then some (.error idleTimeout, clock)
        else
          let clock := clock + turn.waiting
          match turn.frame with
          | none =>
              if clock < min deadline idleDeadline then none
              else some
                (.error (if deadline ≤ idleDeadline then
                  operationTimeout else idleTimeout), clock)
          | some .ended => some (.ok output, clock)
          | some .error => some (.error S3Error.transport, clock)
          | some .trailers =>
              collectFrames maximum idle deadline rest output idleDeadline clock
          | some (.data bytes) =>
              if bytes.isEmpty then
                collectFrames maximum idle deadline rest output idleDeadline
                  clock
              else if 2 ^ 64 ≤ output.length + bytes.length then
                some (.error (oversizedResponse maximum), clock)
              else if maximum < output.length + bytes.length then
                some (.error (oversizedResponse maximum), clock)
              else
                let clock := clock + turn.afterData
                collectFrames maximum idle deadline rest (output ++ bytes)
                  (clock + idle) clock

/-- `collect_response`, from the clock at its start. -/
def collectResponse (response : ResponseHead) (maximum : Nat) (idle : Duration)
    (deadline : Instant) (turns : List FrameTurn) (clock : Instant) :
    Option (Except S3Error Bytes × Instant) :=
  if response.sizeUpper.any fun length => maximum < length then
    some (.error (oversizedResponse maximum), clock)
  else collectFrames maximum idle deadline turns [] (clock + idle) clock

theorem collectFrames_clock {maximum : Nat} {idle : Duration}
    {deadline : Instant} {result : Except S3Error Bytes} {after : Instant} :
    ∀ {turns : List FrameTurn} {output : Bytes} {idleDeadline clock : Instant},
    collectFrames maximum idle deadline turns output idleDeadline clock =
      some (result, after) → clock ≤ after
  | [], _, _, _, h => nomatch h
  | turn :: rest, output, idleDeadline, clock, h => by
      have hdeadline : clock ≤ clock + turn.beforeDeadline :=
        Nat.le_add_right _ _
      have hidle : clock ≤ clock + turn.beforeDeadline + turn.beforeIdle :=
        hdeadline.trans (Nat.le_add_right _ _)
      have hwaiting :
          clock ≤ clock + turn.beforeDeadline + turn.beforeIdle +
              turn.waiting :=
        hidle.trans (Nat.le_add_right _ _)
      rw [collectFrames] at h
      dsimp only at h
      split at h
      · cases h
        exact hdeadline
      split at h
      · cases h
        exact hidle
      split at h
      · split at h
        · cases h
        · cases h
          exact hwaiting
      · cases h
        exact hwaiting
      · cases h
        exact hwaiting
      · exact hwaiting.trans (collectFrames_clock h)
      · split at h
        · exact hwaiting.trans (collectFrames_clock h)
        split at h
        · cases h
          exact hwaiting
        split at h
        · cases h
          exact hwaiting
        · exact (hwaiting.trans (Nat.le_add_right _ _)).trans
            (collectFrames_clock h)

theorem collectResponse_clock {response : ResponseHead} {maximum : Nat}
    {idle : Duration} {deadline : Instant} {turns : List FrameTurn}
    {clock after : Instant} {result : Except S3Error Bytes}
    (h : collectResponse response maximum idle deadline turns clock =
      some (result, after)) :
    clock ≤ after := by
  rw [collectResponse] at h
  split at h
  · cases h
    exact le_rfl
  · exact collectFrames_clock h

/-! ## Errors of the service -/

/-- What `parse_error_document` makes of an error document. -/
structure ParsedS3Error where
  code : Option Str
  message : Option Str
  requestId : Option Str
  hostId : Option Str
  resource : Option Str
  region : Option Str
  deriving DecidableEq

/-- The category of an error of the service, from its code and its status. -/
def classifyServiceError (status : Nat) (code : Option Str) : ErrorCategory :=
  let codeIn := fun codes : List String => code.any fun code =>
    code ∈ codes.map String.toList
  if codeIn ["InvalidAccessKeyId", "SignatureDoesNotMatch", "ExpiredToken",
    "InvalidToken"] then
    .authentication
  else if codeIn ["AccessDenied", "AllAccessDisabled"] then .authorization
  else if codeIn ["NoSuchKey", "NoSuchBucket", "NoSuchUpload", "NotFound"] then
    .notFound
  else if codeIn ["PreconditionFailed"] then .precondition
  else if codeIn ["ConditionalRequestConflict", "OperationAborted"] then
    .conflict
  else if codeIn
      ["SlowDown", "Throttling", "ThrottlingException", "RequestLimitExceeded",
      "TooManyRequestsException", "BandwidthLimitExceeded"] then .throttling
  else if codeIn
      ["InternalError", "InternalFailure", "ServiceUnavailable",
        "ServiceUnavailableException",
      "RequestTimeout", "RequestTimeoutException",
        "PriorRequestNotComplete"] then .server
  else if status = 401 then .authentication
  else if status = 403 then .authorization
  else if status = 404 then .notFound
  else if status = 409 then .conflict
  else if status = 412 then .precondition
  else if status = 429 then .throttling
  else if status = 408 then .server
  else if 500 ≤ status ∧ status < 600 then .server
  else .invalidResponse

/-- Whether an error of the service is worth another attempt. -/
def classifyRetry (status : Nat) (code : Option Str)
    (category : ErrorCategory) : RetryClassification :=
  let byStatus := if status ∈ [500, 502, 503, 504] then
    RetryClassification.retryable else .never
  match category with
  | .throttling => .throttled
  | .server => .retryable
  | .transport => .retryable
  | .timeout => .retryable
  | .conflict =>
      if code.any fun code => code = "ConditionalRequestConflict".toList ∨
        code = "OperationAborted".toList
      then .retryable
      else byStatus
  | _ => byStatus

def isAsciiWhitespace (c : Char) : Bool :=
  c == ' ' || c == '\t' || c == '\n' || c == '\x0c' || c == '\r'

/-- The characters a message of the service may consist of. -/
def isMessageChar (c : Char) : Bool :=
  (c.isAlphanum || isAsciiWhitespace c) || c ∈ ".,:;_-'()".toList

/-- `str::contains`. -/
def Str.containsText (s part : Str) : Bool := s.tails.any part.isPrefixOf

/-- `split_ascii_whitespace`. -/
def splitAsciiWhitespace (s : Str) : List Str :=
  (s.splitOnP isAsciiWhitespace).filter fun word => !word.isEmpty

/-- A message that may be shown, its blanks collapsed; `none` for one that may
not. -/
def sanitizeServiceMessage (message : Str) : Option Str :=
  let lower := toAsciiLowercase message
  if message.isEmpty || message.len > 512 || message.containsText "X-Amz-" ||
      Str.containsText lower "authorization" ||
        Str.containsText lower "token" ||
      !message.all isMessageChar then
    none
  else some ([' '].intercalate (splitAsciiWhitespace message))

/-- A header that is text, not empty, not too long, and without control
characters. -/
def headerText (headers : HeaderMap) (name : Str) : Option Str :=
  ((headers.get name).bind HeaderValue.toStr).filter fun value =>
    !value.isEmpty && value.len ≤ 1024 && value.all fun c => !isAsciiControl c

/-- `service_error`; `now` is the wall clock, which is read for a clock skew. -/
def serviceError (text : HttpText) (status : Nat) (headers : HeaderMap)
    (parsed : Option ParsedS3Error) (now : Int) : S3Error :=
  let code := parsed.bind ParsedS3Error.code
  let category := classifyServiceError status code
  let retry := classifyRetry status code category
  let message :=
    ((parsed.bind ParsedS3Error.message).bind sanitizeServiceMessage).getD
    ("S3 request failed with HTTP status ".toList ++ text.status status)
  let requestId :=
    (headerText headers "x-amz-request-id").or
      (parsed.bind ParsedS3Error.requestId)
  let hostId :=
    (headerText headers "x-amz-id-2").or (parsed.bind ParsedS3Error.hostId)
  let error :=
    (S3Error.new category message retry).withServiceDetails code status
      requestId hostId
  if code.any fun code => code = "RequestTimeTooSkewed".toList ∨
    code = "RequestExpired".toList then
    match ((headers.get "date").bind HeaderValue.toStr).bind text.parseHttpDate
        with
    | some serverTime => error.withClockSkew serverTime now
    | none => error
  else error

/-- What a document that was not accepted is to the caller. -/
def protocolError : ProtocolError → S3Error
  | .oversized _ maximum => oversizedResponse maximum
  | .invalidXml _ => S3Error.invalidResponse "S3 returned malformed XML"
  | .invalidField _ _ => S3Error.invalidResponse "S3 returned malformed XML"

end S3Wire
