/-
# `S3Wire.Client.MultipartUpload.Worker` — the managed upload as a machine

`run_multipart_upload`, `upload_parts`, `quiesce_part_requests` and
`fail_with_abort` of `src/client/multipart_upload.rs`.

The worker is one task, and it is cut where it can be interrupted: at every
`await`, at every poll of a branch of a `select!`, and at every read of the
cancellation flag, which another thread may set between any two of these.  A
`Label` is one such piece of the run together with everything the environment
decides in it — which part is polled, how it resolves, which branch the
unbiased `select!` takes, what the service answers.

    preparing → counted → creating → uploading → completing ⇄ completePolled → finished
                                         │            │            │
                                         └→ quiescing ┴─→ aborting ┴────────→ finished

Four points of the source decide the shape:

* The `select!` around the preparation is biased: it reads the flag first.
* The `select!` of `upload_parts` is not biased: with the flag set, any branch
  that is ready may still be taken.
* A future pushed into the in-flight set does nothing until the set is polled; its
  first poll is when the part begins (`pollPart`).  `quiesce_part_requests` polls
  the same set.
* The `select!` around the completion is biased the other way: it polls the
  completion first and the flag second.  The first poll of the completion never
  sends: hashing the document yields.

Everything observable goes to the history, latest first.
-/
import S3Wire.Lib.History
import S3Wire.Client.MultipartUpload.Part

namespace S3Wire

/-! ## Errors of the worker -/

def cancelled : S3Error := S3Error.cancellation "multipart upload was cancelled"

def transferTimeout : S3Error :=
  S3Error.timeout .operation
    "managed multipart upload exceeded its transfer deadline"

def quiesceTimeout : S3Error :=
  S3Error.timeout .operation
    "multipart cleanup could not quiesce in-flight part requests"

def schedulerLost : S3Error :=
  S3Error.integrity "multipart scheduler lost an in-flight part"

/-- `ManagedUploadFailure`; its deadline is the environment's. -/
structure ManagedUploadFailure where
  primary : S3Error
  quiesceFailure : Option S3Error

def ManagedUploadFailure.new (primary : S3Error) : ManagedUploadFailure :=
  ⟨primary, none⟩

/-- The primary error, with the error of the abort where that failed too. -/
def attachCleanupFailure (primary : S3Error) : Except S3Error Unit → S3Error
  | .ok () => primary
  | .error cleanup => primary.withCleanupFailure cleanup

/-- The end of `fail_with_abort`: the error returned after the abort
answered. -/
def ManagedUploadFailure.result (failure : ManagedUploadFailure)
    (abort : Except S3Error RequestIds) :
    S3Error :=
  let cleanup : Except S3Error Unit :=
    match abort, failure.quiesceFailure with
    | .ok _, none => .ok ()
    | .error e, none => .error e
    | .ok _, some e => .error e
    | .error abort, some quiesce => .error (abort.withCleanupFailure quiesce)
  attachCleanupFailure failure.primary cleanup

/-! ## State -/

/-- How far the future of a part has come. -/
inductive PartStage where
  /-- Pushed, and never polled. -/
  | unpolled
  | begun
  | sent
  deriving DecidableEq, Repr

/-- A part in the set of futures. -/
structure InFlight where
  number : Nat
  stage : PartStage
  deriving DecidableEq, Repr

/-- The variables of `upload_parts`. -/
structure Job where
  context : PartUploadContext
  partCount : Nat
  nextPart : Nat
  pending : List InFlight
  upload : MultipartUpload

/-- How far the future of the completion has come. -/
inductive CompletionStage where
  | unpolled
  /-- The document is being hashed or the request signed. -/
  | preparing
  | sent
  deriving DecidableEq, Repr

/-- Where `run_multipart_upload` stands: each suspension point is a phase. -/
inductive Phase where
  | preparing
  | counted (source : PreparedMultipartSource) (partCount : Nat)
  | creating (source : PreparedMultipartSource) (partCount : Nat)
  | uploading (job : Job)
  | quiescing (job : Job) (primary : S3Error)
  /-- The `select!` of the completion is about to poll the completion. -/
  | completing (uploadId : UploadId) (stage : CompletionStage)
  /-- It has polled the completion, which is pending, and polls the flag
  next. -/
  | completePolled (uploadId : UploadId) (stage : CompletionStage)
  | aborting (uploadId : UploadId) (failure : ManagedUploadFailure)
  /-- A slice of the source was out of bounds. -/
  | panicked
  | finished (result : Except S3Error CompleteMultipartUploadOutput)

/-- What a task does or is told that others can tell; a history lists it, latest
first. -/
inductive Event where
  /-- The flag is set: the caller dropped its future. -/
  | cancelled
  | prepared (source : PreparedMultipartSource)
  | createIssued (request : CreateMultipartUploadRequest)
  | createReturned (result : Except S3Error UploadId)
  | partPushed (number : Nat)
  | partBegun (number : Nat)
  | partSent (request : UploadPartRequest)
  | partResolved (number : Nat) (reply : PartReply)
  | recordRejected (e : MultipartError)
  | schedulerLost
  | cancelObserved
  | deadlineObserved
  | settleTimedOut
  | partsUploaded (upload : MultipartUpload)
  | completionRejected (e : MultipartError)
  | completeIssued (request : CompleteMultipartUploadRequest)
  | completeSent
  | completeReturned (result : Except S3Error CompleteMultipartUploadOutput)
  | abortIssued (request : AbortMultipartUploadRequest)
  | abortReturned (result : Except S3Error RequestIds)
  | panicked

/-- The task of a managed upload: what it is asked, where it stands, and what it
did. -/
structure Worker where
  request : ManagedMultipartUploadRequest
  /-- The cancellation flag. -/
  cancelled : Bool
  /-- The transfer deadline has passed. -/
  expired : Bool
  phase : Phase
  history : List Event

/-- A task that has not run yet. -/
def Worker.init (request : ManagedMultipartUploadRequest) : Worker :=
  ⟨request, false, false, .preparing, []⟩

/-- What polling the preparation of a file source gives. -/
inductive PrepareOutcome where
  | pending
  | timedOut
  | ready (result : Except S3Error FileSnapshot)

/-- What polling the completion gives. -/
inductive CompletionOutcome where
  | pending
  /-- The request goes out; the answer is pending. -/
  | sends
  | returns (result : Except S3Error CompleteMultipartUploadOutput)

/-- What the environment decides at a step: the caller's drop, the deadline, and
what each poll comes to. -/
inductive Label where
  | cancel
  | expire
  | pollPrepare (outcome : PrepareOutcome)
  | checkCancelled
  | createReturns (result : Except S3Error UploadId)
  | pollPart (number : Nat)
  | sendPart (number : Nat)
  | partResolves (number : Nat) (reply : PartReply)
  | pendingNone
  | selectCancelled
  | selectDeadline
  | settleTimeout
  | pollComplete (outcome : CompletionOutcome)
  | pollCancelled
  | abortReturns (result : Except S3Error RequestIds)

/-! ## `upload_parts` -/

/-- The inner `while`.  Every turn adds a future, so the concurrency is fuel
enough. -/
def refill (concurrency partCount : Nat) : Nat → Nat → List InFlight →
    Nat × List InFlight
  | 0, nextPart, pending => (nextPart, pending)
  | fuel + 1, nextPart, pending =>
      if pending.length < concurrency ∧ nextPart ≤ partCount then
        refill concurrency partCount fuel (nextPart + 1)
          (pending ++ [⟨nextPart, .unpolled⟩])
      else (nextPart, pending)

namespace Job

/-- The job of an upload that exists: no part is scheduled. -/
def new (context : PartUploadContext) (partCount : Nat) : Job :=
  ⟨context, partCount, 1, [], MultipartUpload.new context.key context.uploadId⟩

def find (job : Job) (number : Nat) : Option InFlight :=
  job.pending.find? fun f => f.number == number

def setStage (job : Job) (number : Nat) (stage : PartStage) : Job :=
  { job with pending := job.pending.map fun f =>
      if f.number = number then { f with stage := stage } else f }

def remove (job : Job) (number : Nat) : Job :=
  { job with pending := job.pending.filter fun f => f.number != number }

/-- The set of futures, filled up to the limit. -/
def refilled (job : Job) (concurrency : Nat) : Job :=
  let (nextPart, pending) :=
    refill concurrency job.partCount concurrency job.nextPart job.pending
  { job with nextPart := nextPart, pending := pending }

/-- The part numbers a refill pushes, latest first. -/
def pushedBy (job : Job) (concurrency : Nat) : List Nat :=
  (List.range' job.nextPart
    ((job.refilled concurrency).nextPart - job.nextPart)).reverse

end Job

namespace Worker

/-- Something happened. -/
def log (w : Worker) (e : Event) : Worker :=
  { w with history := e :: w.history }

def goto (w : Worker) (phase : Phase) : Worker := { w with phase := phase }

/-- The task returns. -/
def finish (w : Worker)
    (result : Except S3Error CompleteMultipartUploadOutput) : Worker :=
  w.goto (.finished result)

/-- The call of `fail_with_abort`. -/
def failWithAbort (w : Worker) (uploadId : UploadId)
    (failure : ManagedUploadFailure) : Worker :=
  (w.log (.abortIssued ⟨w.request.key, uploadId, w.request.headers.abort⟩)).goto
    (.aborting uploadId failure)

@[simp] theorem log_history (w : Worker) (e : Event) :
    (w.log e).history = e :: w.history := rfl

@[simp] theorem log_request (w : Worker) (e : Event) :
    (w.log e).request = w.request := rfl

@[simp] theorem goto_history (w : Worker) (p : Phase) :
    (w.goto p).history = w.history := rfl

@[simp] theorem goto_phase (w : Worker) (p : Phase) : (w.goto p).phase = p :=
  rfl

@[simp] theorem finish_history (w : Worker)
    (result : Except S3Error CompleteMultipartUploadOutput) :
    (w.finish result).history = w.history := rfl

@[simp] theorem failWithAbort_history (w : Worker) (id : UploadId)
    (f : ManagedUploadFailure) :
    (w.failWithAbort id f).history =
      .abortIssued ⟨w.request.key, id, w.request.headers.abort⟩ :: w.history :=
  rfl

/-- From the success of `upload_parts` to the `select!` around the
completion. -/
def startCompletion (w : Worker) (uploadId : UploadId)
    (upload : MultipartUpload) : Worker :=
  let w := w.log (.partsUploaded upload)
  match CompleteMultipartUploadRequest.new upload.key upload.uploadId
      upload.completedParts with
  | .error e =>
      (w.log (.completionRejected e)).failWithAbort uploadId
        (ManagedUploadFailure.new (S3Error.integrity e.toString))
  | .ok completion =>
      (w.log (.completeIssued
        { completion with headers := w.request.headers.complete })).goto
        (.completing uploadId .unpolled)

/-- The head of the loop of `upload_parts`: fill up, and return when nothing is
in flight. -/
def schedule (w : Worker) (job : Job) : Worker :=
  let concurrency := w.request.options.concurrency
  let filled := job.refilled concurrency
  let w :=
    { w with history := (job.pushedBy concurrency).map Event.partPushed ++
      w.history }
  if filled.pending.isEmpty then
    w.startCompletion filled.context.uploadId filled.upload
  else w.goto (.uploading filled)

/-- The head of the loop of `quiesce_part_requests`, with what comes after
it. -/
def settle (w : Worker) (job : Job) (primary : S3Error) : Worker :=
  if job.pending.isEmpty then
    w.failWithAbort job.context.uploadId (ManagedUploadFailure.new primary)
  else w.goto (.quiescing job primary)

/-- The successful end of the preparation: count the parts. -/
def countParts (w : Worker) (source : PreparedMultipartSource) : Worker :=
  let w := w.log (.prepared source)
  match source.partCount w.request.options.partSize with
  | .error e => w.finish (.error e)
  | .ok partCount => w.goto (.counted source partCount)

/-- One poll of the `select!` around the preparation.  A source in memory is
ready at once. -/
def pollPrepare (w : Worker) (outcome : PrepareOutcome) : Option Worker :=
  if w.cancelled then some (w.finish (.error S3Wire.cancelled))
  else
    match w.request.source, outcome with
    | .bytes buffer, _ => some (w.countParts (.bytes buffer))
    | .file _, .ready (.ok snapshot) => some (w.countParts (.file snapshot))
    | .file _, .ready (.error e) => some (w.finish (.error e))
    | .file _, .timedOut =>
        if w.expired then some (w.finish (.error transferTimeout)) else none
    | .file _, .pending => some w

/-- The `CreateMultipartUpload` of this upload. -/
def createRequest (w : Worker) : CreateMultipartUploadRequest :=
  { CreateMultipartUploadRequest.new w.request.key with
    contentType := w.request.contentType
    userMetadata := w.request.userMetadata
    checksumAlgorithm := w.request.checksumAlgorithm
    headers := w.request.headers.create }

/-- What the parts of this upload share. -/
def partContext (w : Worker) (source : PreparedMultipartSource)
    (uploadId : UploadId) :
    PartUploadContext :=
  ⟨w.request.key, uploadId, source, w.request.options.partSize,
    w.request.checksumAlgorithm,
    w.request.headers.uploadPart⟩

/-- A part result taken by the `select!` of `upload_parts`: record it and go
round the loop, or fail and settle the rest. -/
def takeResult (w : Worker) (job : Job)
    (result : Except S3Error CompletedPart) : Worker :=
  match result with
  | .error primary => w.settle job primary
  | .ok part =>
      match job.upload.recordPart part with
      | .error e =>
          (w.log (.recordRejected e)).settle job (S3Error.integrity e.toString)
      | .ok upload => w.schedule { job with upload := upload }

/-- The first poll of the future of a part.  `k` puts the job back into its
phase. -/
def beginPart (w : Worker) (job : Job) (number : Nat) (k : Job → Phase) :
    Option Worker :=
  match job.find number with
  | some ⟨_, .unpolled⟩ =>
      match job.context.source.readPart job.context.partSize number with
      | .error .panic =>
          some (((w.log (.partBegun number)).log .panicked).goto .panicked)
      | _ => some ((w.log (.partBegun number)).goto (k (job.setStage number .begun)))
  | _ => none

/-- The request of a part goes out. -/
def sendPart (sha : Sha256) (w : Worker) (job : Job) (number : Nat)
    (k : Job → Phase) :
    Option Worker :=
  match job.find number with
  | some ⟨_, .begun⟩ =>
      match preparePart sha job.context number with
      | .ok request =>
          some ((w.log (.partSent request)).goto
            (k (job.setStage number .sent)))
      | .error _ => none
  | _ => none

/-- The future of a part resolves: with a response only after it was sent, with
an error any time after it began. -/
def resolvePart (w : Worker) (job : Job) (number : Nat) (reply : PartReply) :
    Option (Worker × Job) :=
  match job.find number, reply with
  | some ⟨_, .sent⟩, _ =>
      some (w.log (.partResolved number reply), job.remove number)
  | some ⟨_, .begun⟩, .failed _ =>
      some (w.log (.partResolved number reply), job.remove number)
  | _, _ => none

/-- One poll of the completion. -/
def pollComplete (w : Worker) (uploadId : UploadId) (stage : CompletionStage) :
    CompletionOutcome → Option Worker
  | .pending =>
      let stage := if stage = .unpolled then .preparing else stage
      some (w.goto (.completePolled uploadId stage))
  | .sends =>
      if stage = .preparing then
        some ((w.log .completeSent).goto (.completePolled uploadId .sent))
      else none
  | .returns (.ok output) =>
      if stage = .sent then
        some ((w.log (.completeReturned (.ok output))).finish (.ok output))
      else none
  | .returns (.error primary) =>
      some ((w.log (.completeReturned (.error primary))).failWithAbort uploadId
        (ManagedUploadFailure.new primary))

/-- One piece of a run. -/
def step (sha : Sha256) (w : Worker) (label : Label) : Option Worker :=
  match w.phase, label with
  | _, .cancel =>
      if w.cancelled then none
      else some ({ w with cancelled := true }.log .cancelled)
  | _, .expire => some { w with expired := true }
  | .preparing, .pollPrepare outcome => w.pollPrepare outcome
  | .counted source partCount, .checkCancelled =>
      if w.cancelled then some (w.finish (.error S3Wire.cancelled))
      else some
        ((w.log (.createIssued w.createRequest)).goto
          (.creating source partCount))
  | .creating source partCount, .createReturns (.ok uploadId) =>
      some ((w.log (.createReturned (.ok uploadId))).schedule
        (Job.new (w.partContext source uploadId) partCount))
  | .creating _ _, .createReturns (.error e) =>
      some ((w.log (.createReturned (.error e))).finish (.error e))
  | .uploading job, .pollPart number => w.beginPart job number .uploading
  | .uploading job, .sendPart number => w.sendPart sha job number .uploading
  | .uploading job, .partResolves number reply =>
      (w.resolvePart job number reply).map fun (w, job) =>
        w.takeResult job (partResult number reply)
  | .uploading job, .pendingNone =>
      if job.pending.isEmpty then
        some ((w.log .schedulerLost).settle job S3Wire.schedulerLost)
      else none
  | .uploading job, .selectCancelled =>
      if w.cancelled then
        some ((w.log .cancelObserved).settle job S3Wire.cancelled) else none
  | .uploading job, .selectDeadline =>
      if w.expired then
        some ((w.log .deadlineObserved).settle job transferTimeout) else none
  | .quiescing job primary, .pollPart number =>
      w.beginPart job number (.quiescing · primary)
  | .quiescing job primary, .sendPart number =>
      w.sendPart sha job number (.quiescing · primary)
  | .quiescing job primary, .partResolves number reply =>
      (w.resolvePart job number reply).map fun (w, job) => w.settle job primary
  | .quiescing job primary, .settleTimeout =>
      some ((w.log .settleTimedOut).failWithAbort job.context.uploadId
        ⟨primary, some quiesceTimeout⟩)
  | .completing uploadId stage, .pollComplete outcome =>
      w.pollComplete uploadId stage outcome
  | .completePolled uploadId stage, .pollCancelled =>
      if w.cancelled then
        some ((w.log .cancelObserved).failWithAbort uploadId
          (ManagedUploadFailure.new S3Wire.cancelled))
      else some (w.goto (.completing uploadId stage))
  | .aborting _ failure, .abortReturns result =>
      some ((w.log (.abortReturned result)).finish
        (.error (failure.result result)))
  | _, _ => none

end Worker

end S3Wire
