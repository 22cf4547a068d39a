/-
# `S3Wire.Config` — what a client is configured with

`src/config/mod.rs`: the settings that requests are built and retried with.  The
provider of credentials, the observer and the transport are the environment of a
request and no settings here.  `build` checks two settings that only the
transport uses, the connect timeout and the user agent; they are settings of the
builder.
-/
import S3Wire.Endpoint
import S3Wire.Http
import S3Wire.Lib.Fallible
import S3Wire.Retry.Policy

namespace S3Wire

/-- `S3Config`, as the client reads it. -/
structure S3Config where
  endpoint : Endpoint
  region : Str
  bucket : Str
  addressingStyle : AddressingStyle
  attemptTimeout : Duration
  operationTimeout : Duration
  idleBodyTimeout : Duration
  maxXmlResponseSize : Nat
  maxErrorResponseSize : Nat
  retryPolicy : RetryPolicy

/-- `S3Client::operation_target`. -/
def S3Config.operationTarget (grammar : UriGrammar) (config : S3Config)
    (key : Option Str) :
    Except S3Error EndpointUrl :=
  config.endpoint.objectUrl grammar config.bucket key config.addressingStyle

/-! ## Building a configuration -/

/-- `S3ConfigBuilder`, before any of it is checked. -/
structure S3ConfigBuilder where
  endpoint : Endpoint
  region : Str
  bucket : Option Str
  addressingStyle : AddressingStyle
  allowHttp : Bool
  connectTimeout : Duration
  attemptTimeout : Duration
  operationTimeout : Duration
  idleBodyTimeout : Duration
  maxXmlResponseSize : Nat
  maxErrorResponseSize : Nat
  retryPolicy : RetryPolicy
  userAgent : Str

def isTokenChar (c : Char) : Bool := c.isAlphanum || c == '-' || c == '_'

/-- A text that goes into a credential scope. -/
def validateNonemptyToken (name value : Str) : Except S3Error Unit :=
  if value.isEmpty || !value.all isTokenChar then
    .error (S3Error.configuration (name ++ " is invalid".toList))
  else .ok ()

namespace S3ConfigBuilder

variable (grammar : UriGrammar) (builder : S3ConfigBuilder)

/-- One round of the loop over the timeouts; `representable` says whether the
clock can show that much later. -/
def validateTimeout (representable : Duration → Bool) (name : Str)
    (timeout : Duration) : Except S3Error Unit :=
  if timeout = 0 then
    .error (S3Error.configuration (name ++ " must be greater than zero".toList))
  else if !representable timeout then
    .error (S3Error.configuration
      (name ++ " is too large to represent as a deadline".toList))
  else .ok ()

/-- The timeouts, each with the name that its error gives it. -/
def timeouts : List (Str × Duration) :=
  [("connect timeout", builder.connectTimeout),
    ("attempt timeout", builder.attemptTimeout),
    ("operation timeout", builder.operationTimeout),
      ("idle body timeout", builder.idleBodyTimeout)]

/-- The checks of `build` that look at one setting alone. -/
def validateSettings (representable : Duration → Bool) (bucket : Str) :
    Except S3Error Unit := do
  if !builder.endpoint.isHttps && !builder.allowHttp then
    .error (S3Error.configuration
      "plain HTTP requires allow_http_for_local_testing")
  else
    validateNonemptyToken "region" builder.region
    if bucket.isEmpty then
      .error (S3Error.configuration "bucket must not be empty")
    else
      builder.timeouts.forM fun (name, timeout) =>
        validateTimeout representable name timeout
      if builder.maxXmlResponseSize = 0 ∨ builder.maxErrorResponseSize = 0 then
        .error (S3Error.configuration
          "response body limits must be greater than zero")
      else if (HeaderValue.fromStr builder.userAgent).isNone then
        .error (S3Error.configuration
          "user agent is not a valid HTTP header value")
      else if builder.userAgent.isEmpty then
        .error (S3Error.configuration "user agent must not be empty")
      else .ok ()

/-- The configuration, or the error of the first field that fails its check. -/
def build (representable : Duration → Bool) : Except S3Error S3Config :=
  match builder.bucket with
  | none => .error (S3Error.configuration "bucket is required")
  | some bucket => do
      builder.validateSettings representable bucket
      let _ ← builder.endpoint.objectUrl grammar bucket none
        builder.addressingStyle
      return {
        endpoint := builder.endpoint
        region := builder.region
        bucket := bucket
        addressingStyle := builder.addressingStyle
        attemptTimeout := builder.attemptTimeout
        operationTimeout := builder.operationTimeout
        idleBodyTimeout := builder.idleBodyTimeout
        maxXmlResponseSize := builder.maxXmlResponseSize
        maxErrorResponseSize := builder.maxErrorResponseSize
        retryPolicy := builder.retryPolicy }

variable {grammar} {builder}

theorem validateNonemptyToken_ok {name value : Str}
    (h : validateNonemptyToken name value = .ok ()) :
    value ≠ [] ∧ ∀ c ∈ value, isTokenChar c = true := by
  unfold validateNonemptyToken at h
  split at h
  · cases h
  · next hvalid =>
      simp only [Bool.or_eq_true, not_or, Bool.not_eq_true', Bool.not_eq_false,
        List.isEmpty_iff,
        List.all_eq_true] at hvalid
      exact hvalid

theorem build_ok {representable : Duration → Bool} {config : S3Config}
    (h : builder.build grammar representable = .ok config) :
    config.endpoint = builder.endpoint ∧ config.region ≠ [] ∧
    ∀ c ∈ config.region, isTokenChar c = true := by
  unfold build at h
  split at h
  · cases h
  · next bucket _ =>
      obtain ⟨⟨⟩, hsettings, h⟩ := Lib.bind_ok h
      obtain ⟨_, -, h⟩ := Lib.bind_ok h
      cases h
      unfold validateSettings at hsettings
      split at hsettings
      · cases hsettings
      · obtain ⟨⟨⟩, hregion, -⟩ := Lib.bind_ok hsettings
        exact ⟨rfl, validateNonemptyToken_ok hregion⟩

end S3ConfigBuilder

end S3Wire
