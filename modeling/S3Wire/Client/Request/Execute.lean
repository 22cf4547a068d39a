/-
# `S3Wire.Client.Request.Execute` — one operation, attempt by attempt

`src/client/request/execute.rs`, with the events of `src/observer.rs`.  The loop
of `send_signed_inner` as a machine that is run by `Lib.exec`: a phase is a
place where the program waits or looks at a clock, and everything that is not up
to the program comes with the label — how long it waited, what the credential
provider, the transport and the body of the response gave, which number was
drawn, what the retry quota held.  A clock is never set back because labels only
ever add to it.

    head ─check─▶ signing ─sign─▶ sending ─respond─▶ collecting ─collect─▶ finished
      ▲                              │         ╲                    │
      ├────── RegionRedirected ──────┘      collectingError ────────┤
      └─wake── sleeping ◀────────────── RetryScheduled ◀────────────┘

A future that is dropped is a run that stops early; a `?` leaves through
`finished` and no event.  The log is what can be seen of a run, LATEST FIRST.
-/
import S3Wire.Lib.History
import S3Wire.Client.Request.Retry
import S3Wire.Client.Signing
import S3Wire.Config
import S3Wire.Retry.Quota

namespace S3Wire

/-! ## Events -/

/-- `RequestEventKind`: what an observer is told of. -/
inductive RequestEventKind where
  | attemptStarted
  | attemptSucceeded
  | attemptFailed
  | retryScheduled
  | regionRedirected
  deriving DecidableEq, Repr

/-- What an observer is told, and never anything of the credentials or the
body. -/
structure RequestEvent where
  kind : RequestEventKind
  method : Str
  attempt : Nat
  errorCategory : Option ErrorCategory
  retryClassification : Option RetryClassification
  retryDelay : Option Duration
  deriving DecidableEq

namespace RequestEvent

variable (method : Str) (attempt : Nat) (error : S3Error)

def started : RequestEvent :=
  ⟨.attemptStarted, method, attempt, none, none, none⟩

def succeeded : RequestEvent :=
  ⟨.attemptSucceeded, method, attempt, none, none, none⟩

def failed : RequestEvent :=
  ⟨.attemptFailed, method, attempt, some error.category, some error.retry, none⟩

def scheduled (delay : Duration) : RequestEvent :=
  ⟨.retryScheduled, method, attempt, some error.category, some error.retry,
    some delay⟩

def redirected : RequestEvent :=
  ⟨.regionRedirected, method, attempt, none, some .retryable, some 0⟩

end RequestEvent

/-- One `transport.send`: where to, with what timeout, and when. -/
structure Transmission where
  target : EndpointUrl
  signingRegion : Str
  request : HttpRequest
  timeout : Duration
  clock : Instant

/-- What a loop does that others can tell; its log lists it, latest first. -/
inductive SendEvent where
  | observed (event : RequestEvent)
  | sent (transmission : Transmission)
  | permitAcquired (classification : RetryClassification) (permit : RetryPermit)
  | permitCommitted (permit : RetryPermit)
  /-- `replenish_after_success`. -/
  | replenished (lastRetryCost : Option Nat)

def SendEvent.transmission : SendEvent → Option Transmission
  | .sent transmission => some transmission
  | _ => none

def SendEvent.event : SendEvent → Option RequestEvent
  | .observed event => some event
  | _ => none

/-- An event of a kind that the observer is told. -/
def SendEvent.isOf (kind : RequestEventKind) : SendEvent → Bool
  | .observed event => event.kind = kind
  | _ => false

/-- What was sent, latest first. -/
def transmissions (log : List SendEvent) : List Transmission :=
  log.filterMap SendEvent.transmission

/-- What the observer was told, in order. -/
def observations (log : List SendEvent) : List RequestEvent :=
  (log.filterMap SendEvent.event).reverse

/-! ## One call -/

abbrev EmbeddedErrorParser :=
  Bytes → Nat → Except ProtocolError (Option ParsedS3Error)

/-- What is done with a successful response: hand its body on, or read it as
XML. -/
inductive SuccessMode where
  | streaming
  | collectedXml (maximum : Nat) (embeddedError : EmbeddedErrorParser)

/-- The result of each of the two modes. -/
inductive SuccessfulResponse where
  | streaming (response : ResponseHead)
  | collected (headers : HeaderMap) (body : Bytes)

/-- What a client brings to every request; `parseS3Error` is
`parse_s3_error(..).ok()`. -/
structure S3Client where
  config : S3Config
  grammar : UriGrammar
  crypto : Crypto
  text : HttpText
  parseS3Error : Bytes → Nat → Option ParsedS3Error

/-- The authority of a bucket at a service. -/
def AddressingStyle.serviceAuthority (bucket authority : Str) :
    AddressingStyle → Str
  | .path => authority
  | .virtualHosted => bucket ++ '.' :: authority

/-- The authority of the bucket at a service of this authority. -/
def S3Config.serviceAuthority (config : S3Config) (authority : Str) : Str :=
  config.addressingStyle.serviceAuthority config.bucket authority

/-- The arguments of `send_signed_inner`. -/
structure SignedSend where
  method : Str
  target : EndpointUrl
  query : List QueryParam
  headers : HeaderMap
  body : Option PreparedBody
  deadline : Instant
  successMode : SuccessMode

namespace SignedSend

variable (call : SignedSend)

/-- `body.is_none_or(PreparedBody::is_replayable)`. -/
def isReplayable : Bool := call.body.all PreparedBody.isReplayable

/-- The digest in the signature; that of no bytes where there is no body. -/
def payloadHash (crypto : Crypto) : Str :=
  match call.body with
  | none => payloadSha256Hex crypto []
  | some body => hexEncode body.sha256

end SignedSend

/-- `OperationDeadline::remaining`. -/
def remaining (deadline clock : Instant) : Except S3Error Duration :=
  if clock < deadline then .ok (deadline - clock) else .error operationTimeout

/-- Where `send_signed_inner` stands: each suspension point is a phase. -/
inductive SendPhase where
  | head
  | signing
  | sending
  | collecting (response : ResponseHead) (retryAfter : Option Duration)
      (maximum : Nat)
      (embeddedError : EmbeddedErrorParser)
  | collectingError (response : ResponseHead) (retryAfter : Option Duration)
  | sleeping
  | finished (result : Except S3Error SuccessfulResponse)

/-- The locals of the loop.  `delay` is that of the last decision to go on; a
region correction has none. -/
structure SendState where
  phase : SendPhase
  target : EndpointUrl
  signingRegion : Str
  regionRedirected : Bool
  /-- What is left of the body. -/
  body : Option PreparedBody
  started : Instant
  clock : Instant
  attemptsCompleted : Nat
  lastRetryCost : Option Nat
  pendingRetryPermit : Option RetryPermit
  delay : Duration
  log : List SendEvent

/-- What the handling of an outcome meets: the time until `started.elapsed()`
and from there until `deadline.remaining()`, the wall clock, the draw of the
delay and the quota. What a branch does not look at does not matter to it. -/
structure OutcomeEnv where
  beforeElapsed : Duration
  beforeRemaining : Duration
  now : Int
  draw : Nat
  quota : RetryQuota
  deriving DecidableEq

/-- What the environment decides at a step: how long it takes, and what is
answered. -/
inductive SendLabel where
  | check (wait : Duration)
  /-- `none` when the deadline fires first. -/
  | sign (wait : Duration) (answer : Option SigningEnv)
      (beforeRemaining : Duration)
  | respond (wait : Duration) (outcome : Except S3Error ResponseHead)
      (env : OutcomeEnv)
  | collect (turns : List FrameTurn) (env : OutcomeEnv)
  | wake (late : Duration)

/-! ## What follows a failed attempt -/

/-- What `handle_attempt_failure` decides. -/
inductive FailureDecision where
  | stop (reason : RetryStopReason)
  | schedule (delay : Duration) (permit : RetryPermit)

/-- Whether and when a failed attempt is followed by another. -/
def failureDecision (policy : RetryPolicy) (replayable : Bool)
    (classification : RetryClassification) (attemptsCompleted : Nat)
    (elapsed : Duration) (retryAfter : Option Duration) (draw : Nat)
    (remaining : Except S3Error Duration) (quota : RetryQuota) :
    FailureDecision :=
  if !replayable then .stop .nonReplayable
  else if classification = .never then .stop .nonRetryable
  else if policy.maxAttempts ≤ attemptsCompleted then .stop .attemptsExhausted
  else if policy.maxElapsed ≤ elapsed then .stop .elapsedLimit
  else
    match policy.delayFor classification attemptsCompleted elapsed retryAfter
        draw with
    | none => .stop .elapsedLimit
    | some delay =>
        match remaining with
        | .error _ => .stop .deadline
        | .ok remaining =>
            if remaining ≤ delay then .stop .deadline
            else
              match quota.acquire classification with
              | none => .stop .retryQuota
              | some (permit, _) => .schedule delay permit

theorem failureDecision_schedule {policy : RetryPolicy} {replayable : Bool}
    {classification : RetryClassification} {attemptsCompleted draw : Nat}
    {elapsed delay : Duration} {retryAfter : Option Duration}
    {remaining : Except S3Error Duration} {quota : RetryQuota}
    {permit : RetryPermit}
    (h : failureDecision policy replayable classification attemptsCompleted
      elapsed retryAfter draw remaining
      quota = .schedule delay permit) :
    replayable = true ∧ classification ≠ .never ∧
    attemptsCompleted < policy.maxAttempts ∧
      elapsed + delay ≤ policy.maxElapsed ∧
      retryCost classification = some permit.cost ∧
      permit.committed = false := by
  rw [failureDecision] at h
  split at h
  · cases h
  · next hreplayable =>
    split at h
    · cases h
    · next hnever =>
      split at h
      · cases h
      · next hattempts =>
        split at h
        · cases h
        · split at h
          · cases h
          · next hdelay =>
            split at h
            · cases h
            · split at h
              · cases h
              · split at h
                · cases h
                · next hquota =>
                  cases h
                  have hpermit := RetryQuota.acquire_some hquota
                  exact ⟨by simpa using hreplayable, hnever,
                    not_le.mp hattempts, policy.delayFor_le hdelay,
                    hpermit.1, hpermit.2.1⟩

theorem failureDecision_delay {policy : RetryPolicy} {replayable : Bool}
    {classification : RetryClassification} {attemptsCompleted draw : Nat}
    {elapsed delay : Duration} {retryAfter : Option Duration}
    {remaining : Except S3Error Duration} {quota : RetryQuota}
    {permit : RetryPermit}
    (h : failureDecision policy replayable classification attemptsCompleted
      elapsed retryAfter draw
      remaining quota = .schedule delay permit) :
    policy.delayFor classification attemptsCompleted elapsed retryAfter draw =
      some delay := by
  rw [failureDecision] at h
  split at h
  · cases h
  split at h
  · cases h
  split at h
  · cases h
  split at h
  · cases h
  split at h
  · cases h
  next hdelay =>
  split at h
  · cases h
  split at h
  · cases h
  split at h
  · cases h
  · cases h
    exact hdelay

/-! ## The loop -/

namespace SendState

section Steps

variable (client : S3Client) (call : SignedSend) (s : SendState)

/-- A turn of the clock. -/
def after (wait : Duration) : SendState := { s with clock := s.clock + wait }

/-- An error that leaves through `?`. -/
def leave (error : S3Error) : SendState :=
  { s with phase := .finished (.error error) }

/-- The request of this turn of the loop, before it is signed. -/
def signingInput : SignedRequestInput where
  method := call.method
  target := s.target
  query := call.query
  headers := call.headers
  body := s.body
  payloadHash := call.payloadHash client.crypto
  signingRegion := s.signingRegion

/-- The permit, committed, and its cost. -/
def commitPermit : SendState :=
  match s.pendingRetryPermit with
  | some permit =>
      { s with
        pendingRetryPermit := none
        lastRetryCost := some permit.commit.1
        log := .permitCommitted permit :: s.log }
  | none => s

/-- The request is sent: a permit that was held is spent. -/
def beginAttempt (request : HttpRequest) (remaining : Duration) : SendState :=
  let s := s.commitPermit
  let attempt := saturatingAdd32 s.attemptsCompleted 1
  { s with
    phase := .sending
    attemptsCompleted := attempt
    log := .sent
      ⟨s.target, s.signingRegion, request,
        min client.config.attemptTimeout remaining, s.clock⟩ ::
      .observed (.started call.method attempt) :: s.log }

/-- The loop returns a response, and the quota gets its tokens back. -/
def succeed (response : SuccessfulResponse) : SendState :=
  { s with
    phase := .finished (.ok response)
    log := .observed (.succeeded call.method s.attemptsCompleted) ::
      .replenished s.lastRetryCost :: s.log }

/-- From `started.elapsed()` to the end of the loop body. -/
def fail (error : S3Error) (retryAfter : Option Duration) (env : OutcomeEnv) :
    SendState :=
  let elapsed := s.clock + env.beforeElapsed - s.started
  let clock := s.clock + env.beforeElapsed + env.beforeRemaining
  match failureDecision client.config.retryPolicy call.isReplayable error.retry
      s.attemptsCompleted elapsed
      retryAfter env.draw (remaining call.deadline clock) env.quota with
  | .stop reason =>
      { s with
        clock := clock
        phase :=
          .finished (.error (error.withRetryContext s.attemptsCompleted reason))
        log := .observed (.failed call.method s.attemptsCompleted error) ::
          s.log }
  | .schedule delay permit =>
      { s with
        clock := clock
        phase := .sleeping
        delay := delay
        pendingRetryPermit := some permit
        log := .observed
          (.scheduled call.method s.attemptsCompleted error delay) ::
          .permitAcquired error.retry permit :: s.log }

/-- A response that is an error starts to be read. -/
def collectError (response : ResponseHead) (env : OutcomeEnv) : SendState :=
  { s with
    phase := .collectingError response
      (parseRetryAfter client.text env.now response.headers) }

/-- The region and the authority to ask next: the guards of a region correction,
with the clock at `started.elapsed()`. -/
def correction (response : ResponseHead) : Option (Str × Str) :=
  if s.regionRedirected then none
  else
    match controlledRegionRedirect response.status response.headers with
    | none => none
    | some region =>
        match redirectedAwsAuthority client.config.endpoint.url region with
        | none => none
        | some authority =>
            if call.isReplayable ∧
                s.attemptsCompleted < client.config.retryPolicy.maxAttempts ∧
                s.clock - s.started < client.config.retryPolicy.maxElapsed then
              some (region, client.config.serviceAuthority authority)
            else none

/-- The target of another region, at once and without a permit. -/
def correct (region authority : Str) : SendState :=
  match s.target.withAuthority client.grammar authority with
  | .error e => s.leave e
  | .ok target =>
      { s with
        phase := .head
        target := target
        signingRegion := region
        regionRedirected := true
        delay := 0
        log := .observed (.redirected call.method s.attemptsCompleted) ::
          s.log }

/-- The `match` on what the transport gave. -/
def respond (outcome : Except S3Error ResponseHead) (env : OutcomeEnv) :
    SendState :=
  match outcome with
  | .error e => s.fail client call e none env
  | .ok response =>
      if response.isSuccess then
        match call.successMode with
        | .streaming => s.succeed call (.streaming response)
        | .collectedXml maximum embeddedError =>
            { s with
              phase :=
                .collecting response
                  (parseRetryAfter client.text env.now response.headers) maximum
                embeddedError }
      else
        let s := s.after env.beforeElapsed
        match s.correction client call response with
        | some (region, authority) => s.correct client call region authority
        | none => s.collectError client response env

/-- What a collected success means. -/
def collected (response : ResponseHead) (retryAfter : Option Duration)
    (maximum : Nat) (embeddedError : EmbeddedErrorParser)
    (result : Except S3Error Bytes) (env : OutcomeEnv) : SendState :=
  match result with
  | .error e => s.fail client call e retryAfter env
  | .ok body =>
      match embeddedError body maximum with
      | .error e => s.fail client call (protocolError e) retryAfter env
      | .ok (some parsed) =>
          s.fail client call
            (serviceError client.text 200 response.headers
              (some parsed) env.now) retryAfter env
      | .ok none => s.succeed call (.collected response.headers body)

/-- The end of `response_error`. -/
def responseError (response : ResponseHead) (result : Except S3Error Bytes)
    (env : OutcomeEnv) : S3Error :=
  match result with
  | .error e => e
  | .ok body =>
      serviceError client.text response.status response.headers
        (client.parseS3Error body client.config.maxErrorResponseSize) env.now

/-- What comes of signing, which takes the body when it succeeds. -/
def sign (answer : SigningEnv) (beforeRemaining : Duration) : SendState :=
  match signedRequest client.crypto answer (s.signingInput client call) with
  | (.error e, body) => { s with body := body }.leave e
  | (.ok request, body) =>
      let s := { s with body := body }.after beforeRemaining
      match remaining call.deadline s.clock with
      | .error e => s.leave e
      | .ok remaining => s.beginAttempt client call request remaining

/-- One step of `send_signed_inner`, from one suspension point to the next. -/
def step (s : SendState) (label : SendLabel) : Option SendState :=
  match s.phase, label with
  | .head, .check wait =>
      let s := s.after wait
      match remaining call.deadline s.clock with
      | .error e => some (s.leave e)
      | .ok _ => some { s with phase := .signing }
  | .signing, .sign wait answer beforeRemaining =>
      let s := s.after wait
      match answer with
      | none =>
          if s.clock < call.deadline then none
          else some (s.leave operationTimeout)
      | some answer => some (s.sign client call answer beforeRemaining)
  | .sending, .respond wait outcome env =>
      some ((s.after wait).respond client call outcome env)
  | .collecting response retryAfter maximum embeddedError, .collect turns env =>
      match collectResponse response maximum client.config.idleBodyTimeout
          call.deadline turns s.clock with
      | none => none
      | some (result, clock) =>
          some ({ s with clock := clock }.collected client call response
            retryAfter maximum embeddedError result
            env)
  | .collectingError response retryAfter, .collect turns env =>
      match collectResponse response client.config.maxErrorResponseSize
          client.config.idleBodyTimeout
          call.deadline turns s.clock with
      | none => none
      | some (result, clock) =>
          some ({ s with clock := clock }.fail client call
            (responseError client response result env) retryAfter
            env)
  | .sleeping, .wake late =>
      some { s.after (s.delay + late) with phase := .head }
  | _, _ => none

/-- The state before the loop, at the reading of the clock that starts it. -/
def initial (started : Instant) : SendState :=
  match call.target.withQuery client.grammar (canonicalQuery call.query) with
  | .error e => initialAt call.target (.finished (.error e))
  | .ok target => initialAt target .head
where
  initialAt (target : EndpointUrl) (phase : SendPhase) : SendState :=
    { phase := phase
      target := target
      signingRegion := client.config.region
      regionRedirected := false
      body := call.body
      started := started
      clock := started
      attemptsCompleted := 0
      lastRetryCost := none
      pendingRetryPermit := none
      delay := 0
      log := [] }

/-- A run of `send_signed_inner`, over or not. -/
def Reaches (started : Instant) (labels : List SendLabel) (s : SendState) :
    Prop :=
  Lib.exec (step client call) (initial client call started) labels = some s

end Steps

/-! ## What one step can do

Every property of the loop is read off this list and not off `step`.  A state is
given by what changes in it; the conditions are the ones a branch was taken
under. -/

end SendState

/-- A request has been sent and its outcome is not handled yet. -/
def SendPhase.isInFlight : SendPhase → Bool
  | .sending => true
  | .collecting .. => true
  | .collectingError .. => true
  | _ => false

namespace SendState

section Turns

variable (client : S3Client) (call : SignedSend) (s : SendState)

/-- How an outcome is handled: the instant at which `started.elapsed()` is read,
the time from there to the end of the loop body, and the `Retry-After` of the
response. -/
structure Handling where
  now : Instant
  rest : Duration
  retryAfter : Option Duration

/-- The outcome that a label handles, when it handles one. -/
def handling : SendLabel → Option Handling
  | .respond wait _ env =>
    some ⟨s.clock + wait + env.beforeElapsed, env.beforeRemaining, none⟩
  | .collect turns env =>
      match s.phase with
      | .collecting response retryAfter maximum _ =>
          (collectResponse response maximum client.config.idleBodyTimeout
            call.deadline turns
            s.clock).map fun (_, clock) =>
              ⟨clock + env.beforeElapsed, env.beforeRemaining, retryAfter⟩
      | .collectingError response retryAfter =>
          (collectResponse response client.config.maxErrorResponseSize
            client.config.idleBodyTimeout
            call.deadline turns s.clock).map fun (_, clock) =>
              ⟨clock + env.beforeElapsed, env.beforeRemaining, retryAfter⟩
      | _ => none
  | _ => none

/-- The corrected authority is no authority, or makes no URI. -/
def Strays : SendLabel → Prop
  | .respond wait (.ok response) env =>
      response.isSuccess = false ∧ ∃ region authority e,
        ((s.after wait).after env.beforeElapsed).correction client call
          response = some (region, authority) ∧
          s.target.withAuthority client.grammar authority = .error e
  | _ => False

/-- An outcome with another end. -/
def Stays : SendLabel → Prop
  | .respond wait outcome env =>
    ¬ s.Strays client call (.respond wait outcome env)
  | .collect .. => True
  | _ => False

/-- What one step of the loop can do, by the label and with the guard of each
branch: every invariant of the loop is proved from this and not from `step`. -/
inductive Turn : SendLabel → SendState → Prop
  | checked {wait : Duration} (hphase : s.phase = .head)
    (hclock : s.clock + wait < call.deadline) :
      Turn (.check wait) { s.after wait with phase := .signing }
  | expired {wait : Duration} (hphase : s.phase = .head)
      (hclock : call.deadline ≤ s.clock + wait) :
      Turn (.check wait) ((s.after wait).leave operationTimeout)
  | timedOut {wait beforeRemaining : Duration} (hphase : s.phase = .signing)
      (hclock : call.deadline ≤ s.clock + wait) :
      Turn (.sign wait none beforeRemaining)
        ((s.after wait).leave operationTimeout)
  | refused {wait beforeRemaining : Duration} {answer : SigningEnv}
      {e : S3Error} {body : Option PreparedBody}
      (hphase : s.phase = .signing)
      (hsigned :
        signedRequest client.crypto answer (s.signingInput client call) =
          (.error e, body)) :
      Turn (.sign wait (some answer) beforeRemaining)
        ({ s.after wait with body := body }.leave e)
  | late {wait beforeRemaining : Duration} {answer : SigningEnv}
      {request : HttpRequest}
      {body : Option PreparedBody} (hphase : s.phase = .signing)
      (hsigned :
        signedRequest client.crypto answer (s.signingInput client call) =
          (.ok request, body))
      (hclock : call.deadline ≤ s.clock + wait + beforeRemaining) :
      Turn (.sign wait (some answer) beforeRemaining)
        (({ s.after wait with body := body }.after beforeRemaining).leave
          operationTimeout)
  | sent {wait beforeRemaining : Duration} {answer : SigningEnv}
      {request : HttpRequest}
      {body : Option PreparedBody} {clock : Instant}
      (hphase : s.phase = .signing)
      (hsigned :
        signedRequest client.crypto answer (s.signingInput client call) =
          (.ok request, body))
      (hnow : clock = s.clock + wait + beforeRemaining)
      (hclock : clock < call.deadline) :
      Turn (.sign wait (some answer) beforeRemaining)
        { s with
          phase := .sending
          body := body
          clock := clock
          attemptsCompleted := saturatingAdd32 s.attemptsCompleted 1
          lastRetryCost :=
            (s.pendingRetryPermit.map RetryPermit.cost).or s.lastRetryCost
          pendingRetryPermit := none
          log := .sent ⟨s.target, s.signingRegion, request,
              min client.config.attemptTimeout (call.deadline - clock),
                clock⟩ ::
            .observed
              (.started call.method (saturatingAdd32 s.attemptsCompleted 1)) ::
            (s.pendingRetryPermit.toList.map .permitCommitted ++ s.log) }
  | woke {late : Duration} (hphase : s.phase = .sleeping) :
      Turn (.wake late) { s.after (s.delay + late) with phase := .head }
  | succeeded {label : SendLabel} {clock : Instant}
      {response : SuccessfulResponse}
      (hphase : s.phase.isInFlight = true) (hstays : s.Stays client call label)
      (hclock : s.clock ≤ clock) :
      Turn label ({ s with clock := clock }.succeed call response)
  | reading {label : SendLabel} {clock : Instant} {phase : SendPhase}
      (hphase : s.phase.isInFlight = true)
      (hstays : s.Stays client call label) (hclock : s.clock ≤ clock)
      (hnext : phase.isInFlight = true) :
      Turn label { s with clock := clock, phase := phase }
  | corrected {label : SendLabel} {clock : Instant} {response : ResponseHead}
      {region authority : Str}
      {target : EndpointUrl} (hphase : s.phase = .sending)
      (hstays : s.Stays client call label)
      (hclock : s.clock ≤ clock)
      (hcorrection : { s with clock := clock }.correction client call response =
        some (region, authority))
      (htarget : s.target.withAuthority client.grammar authority = .ok target)
      {handled : Handling}
      (hhandled : s.handling client call label = some handled)
      (hread : clock = handled.now) :
      Turn label
        { s with
          clock := clock
          phase := .head
          target := target
          signingRegion := region
          regionRedirected := true
          delay := 0
          log := .observed (.redirected call.method s.attemptsCompleted) ::
            s.log }
  | strayed {label : SendLabel} {clock : Instant} {e : S3Error}
      {response : ResponseHead}
      {region authority : Str} (hphase : s.phase = .sending)
      (hstrays : s.Strays client call label)
      (hcorrection : { s with clock := clock }.correction client call response =
        some (region, authority))
      (htarget : s.target.withAuthority client.grammar authority = .error e) :
      Turn label ({ s with clock := clock }.leave e)
  | stopped {label : SendLabel} {clock : Instant} {error : S3Error}
      {reason : RetryStopReason}
      (hphase : s.phase.isInFlight = true) (hstays : s.Stays client call label)
      (hclock : s.clock ≤ clock) :
      Turn label
        { s with
          clock := clock
          phase :=
            .finished
              (.error (error.withRetryContext s.attemptsCompleted reason))
          log := .observed (.failed call.method s.attemptsCompleted error) ::
            s.log }
  | scheduled {label : SendLabel} {decided clock : Instant} {error : S3Error}
      {delay : Duration}
      {permit : RetryPermit} (hphase : s.phase.isInFlight = true)
      (hstays : s.Stays client call label)
      (hdecided : s.clock ≤ decided) (hclock : decided ≤ clock)
      (hreplayable : call.isReplayable = true)
      (hnever : error.retry ≠ .never)
      (hattempts : s.attemptsCompleted < client.config.retryPolicy.maxAttempts)
      (helapsed : decided - s.started + delay ≤
        client.config.retryPolicy.maxElapsed)
      (hcost : retryCost error.retry = some permit.cost) {handled : Handling}
      (hhandled : s.handling client call label = some handled)
      (hread : decided = handled.now)
      (hnow : clock = decided + handled.rest)
      (hdelay : delay ≤
        client.config.retryPolicy.longestDelay s.attemptsCompleted
        (decided - s.started) handled.retryAfter) :
      Turn label
        { s with
          clock := clock
          phase := .sleeping
          delay := delay
          pendingRetryPermit := some permit
          log := .observed
            (.scheduled call.method s.attemptsCompleted error delay) ::
            .permitAcquired error.retry permit :: s.log }

end Turns

section Inversion

variable {client : S3Client} {call : SignedSend} {s s' : SendState}
  {label : SendLabel}

theorem remaining_error {deadline clock : Instant} {e : S3Error}
    (h : remaining deadline clock = .error e) :
    deadline ≤ clock ∧ e = operationTimeout := by
  rw [remaining] at h
  split at h
  · cases h
  · next hclock =>
      cases h
      exact ⟨not_lt.mp hclock, rfl⟩

theorem remaining_ok {deadline clock : Instant} {left : Duration}
    (h : remaining deadline clock = .ok left) :
    clock < deadline ∧ left = deadline - clock := by
  rw [remaining] at h
  split at h
  · next hclock =>
      cases h
      exact ⟨hclock, rfl⟩
  · cases h

theorem beginAttempt_eq (s : SendState) (request : HttpRequest)
    (left : Duration) :
    s.beginAttempt client call request left =
      { s with
        phase := .sending
        attemptsCompleted := saturatingAdd32 s.attemptsCompleted 1
        lastRetryCost :=
          (s.pendingRetryPermit.map RetryPermit.cost).or s.lastRetryCost
        pendingRetryPermit := none
        log := .sent
          ⟨s.target, s.signingRegion, request,
            min client.config.attemptTimeout left, s.clock⟩ ::
          .observed
            (.started call.method (saturatingAdd32 s.attemptsCompleted 1)) ::
          (s.pendingRetryPermit.toList.map .permitCommitted ++ s.log) } := by
  rw [beginAttempt, commitPermit]
  cases hpermit : s.pendingRetryPermit with
  | none =>
      show { s with phase := _, attemptsCompleted := _, log := _ } = _
      rw [hpermit]
      rfl
  | some permit => rfl

theorem fail_turn {clock : Instant} (error : S3Error)
    (retryAfter : Option Duration) (env : OutcomeEnv)
    (hphase : s.phase.isInFlight = true) (hstays : s.Stays client call label)
    (hclock : s.clock ≤ clock)
    (hhandled : s.handling client call label =
      some ⟨clock + env.beforeElapsed, env.beforeRemaining, retryAfter⟩) :
    Turn client call s label
      ({ s with clock := clock }.fail client call error retryAfter env) := by
  have hdecided : s.clock ≤ clock + env.beforeElapsed :=
    hclock.trans (Nat.le_add_right _ _)
  rw [fail]
  dsimp only
  split
  · exact .stopped hphase hstays (hdecided.trans (Nat.le_add_right _ _))
  · next delay permit hdecision =>
      obtain ⟨hreplayable, hnever, hattempts, helapsed, hcost, -⟩ :=
        failureDecision_schedule hdecision
      exact .scheduled hphase hstays hdecided
        (Nat.le_add_right _ _) hreplayable hnever hattempts helapsed
        hcost hhandled rfl rfl
          (RetryPolicy.delayFor_le_longest _ (failureDecision_delay hdecision))

theorem respond_turn {wait : Duration} {outcome : Except S3Error ResponseHead}
    {env : OutcomeEnv} (hphase : s.phase = .sending) :
    Turn client call s (.respond wait outcome env)
      ((s.after wait).respond client call outcome env) := by
  have hflight : s.phase.isInFlight = true := by
    rw [hphase]
    rfl
  have hclock : s.clock ≤ s.clock + wait := Nat.le_add_right _ _
  cases outcome with
  | error e => exact fail_turn e none env hflight (fun h => h) hclock rfl
  | ok response =>
      by_cases hsuccess : response.isSuccess = true
      · have hstays :
            s.Stays client call (.respond wait (.ok response) env) := by
          rintro ⟨hfailed, -⟩
          rw [hsuccess] at hfailed
          cases hfailed
        rw [respond]
        dsimp only
        rw [if_pos hsuccess]
        cases call.successMode with
        | streaming => exact .succeeded hflight hstays hclock
        | collectedXml maximum embeddedError =>
            exact .reading hflight hstays hclock rfl
      · have hfailed : response.isSuccess = false :=
          Bool.eq_false_iff.mpr hsuccess
        have helapsed : s.clock ≤ s.clock + wait + env.beforeElapsed :=
          hclock.trans (Nat.le_add_right _ _)
        rw [respond]
        dsimp only
        rw [if_neg hsuccess]
        split
        · next region authority hcorrection =>
            rw [correct]
            split
            · next e htarget =>
                exact .strayed hphase
                  ⟨hfailed, region, authority, e, hcorrection, htarget⟩
                    hcorrection htarget
            · next target htarget =>
                refine .corrected hphase ?_ helapsed hcorrection htarget rfl rfl
                rintro ⟨-, region', authority', e, hcorrection', herror⟩
                obtain ⟨-, rfl⟩ :=
                  Prod.mk.inj
                    (Option.some.inj (hcorrection.symm.trans hcorrection'))
                cases htarget.symm.trans herror
        · next hnone =>
            refine .reading hflight ?_ helapsed rfl
            rintro ⟨-, region, authority, e, hcorrection, -⟩
            cases hnone.symm.trans hcorrection

/-- **A step is one of these turns.** -/
theorem step_turn (h : step client call s label = some s') :
    Turn client call s label s' := by
  rw [step.eq_def] at h
  split at h
  · next wait hphase =>
      dsimp only at h
      split at h
      · next e herror =>
          cases h
          obtain ⟨hclock, rfl⟩ := remaining_error herror
          exact .expired hphase hclock
      · next hok =>
          cases h
          exact .checked hphase (remaining_ok hok).1
  · next wait answer beforeRemaining hphase =>
      dsimp only at h
      split at h
      · split at h
        · cases h
        · next hclock =>
            cases h
            exact .timedOut hphase (not_lt.mp hclock)
      · next answer =>
          cases h
          rw [sign]
          split
          · next e body hsigned => exact .refused hphase hsigned
          · next request body hsigned =>
              dsimp only
              split
              · next e herror =>
                  obtain ⟨hclock, rfl⟩ := remaining_error herror
                  exact .late hphase hsigned hclock
              · next left hleft =>
                  obtain ⟨hclock, rfl⟩ := remaining_ok hleft
                  rw [beginAttempt_eq]
                  exact .sent hphase hsigned rfl hclock
  · next wait outcome env hphase =>
      cases h
      exact respond_turn hphase
  · next response retryAfter maximum embeddedError turns env hphase =>
      have hflight : s.phase.isInFlight = true := by
        rw [hphase]
        rfl
      split at h
      · cases h
      · next result clock hcollect =>
          cases h
          have hclock := collectResponse_clock hcollect
          have hhandled : s.handling client call (.collect turns env) =
              some ⟨clock + env.beforeElapsed, env.beforeRemaining,
                  retryAfter⟩ := by
            rw [handling, hphase]
            dsimp only
            rw [hcollect]
            rfl
          rw [collected.eq_def]
          split
          · exact fail_turn _ _ _ hflight trivial hclock hhandled
          · split
            · exact fail_turn _ _ _ hflight trivial hclock hhandled
            · exact fail_turn _ _ _ hflight trivial hclock hhandled
            · exact .succeeded hflight trivial hclock
  · next response retryAfter turns env hphase =>
      have hflight : s.phase.isInFlight = true := by
        rw [hphase]
        rfl
      split at h
      · cases h
      · next result clock hcollect =>
          cases h
          refine fail_turn _ _ _ hflight trivial
            (collectResponse_clock hcollect) ?_
          rw [handling, hphase]
          dsimp only
          rw [hcollect]
          rfl
  · next late hphase =>
      cases h
      exact .woke hphase
  · cases h

theorem transmissions_committed (permit : Option RetryPermit)
    (log : List SendEvent) :
    transmissions (permit.toList.map .permitCommitted ++ log) =
      transmissions log := by
  cases permit with
  | none => rfl
  | some permit => rfl

theorem transmissions_sent (now : Transmission) (event : RequestEvent)
    (permit : Option RetryPermit) (log : List SendEvent) :
    transmissions
      (.sent now :: .observed event ::
        (permit.toList.map .permitCommitted ++ log)) =
      now :: transmissions log :=
  congrArg (now :: ·) (transmissions_committed permit log)

/-- Only one turn sends, and what it sends was signed from the input of the
loop. -/
theorem turn_sends (h : Turn client call s label s') :
    transmissions s'.log = transmissions s.log ∨
    ∃ now answer body, transmissions s'.log = now :: transmissions s.log ∧
      signedRequest client.crypto answer (s.signingInput client call) =
        (.ok now.request, body) := by
  cases h with
  | sent hphase hsigned =>
      exact Or.inr ⟨_, _, _, transmissions_sent _ _ _ _, hsigned⟩
  | _ => exact Or.inl rfl

end Inversion

end SendState

end S3Wire
