/-
# `S3Wire.Client.MultipartUpload.Turn` — what a step of the worker can do

`Worker.step` read once: `Worker.Turn` has one constructor for each way a step
can end, with the phase it starts in and the guards it has passed, and
`Worker.turn_of_step` says there is no other way.  Every invariant of the worker
is a case analysis over the turns.
-/
import S3Wire.Client.MultipartUpload.Worker

namespace S3Wire

/-- The phases in which the futures of a job are polled, as ways of putting the
job back. -/
inductive Polling : (Job → Phase) → Prop
  | uploading : Polling .uploading
  | quiescing (primary : S3Error) : Polling (.quiescing · primary)

/-- One piece of a run and the state it ends in. -/
inductive Worker.Turn (sha : Sha256) (w : Worker) : Label → Worker → Prop
  | cancels (hflag : w.cancelled = false) :
      Turn sha w .cancel ({ w with cancelled := true }.log .cancelled)
  | expires : Turn sha w .expire { w with expired := true }
  | counts {outcome : PrepareOutcome} {source : PreparedMultipartSource}
      (hphase : w.phase = .preparing)
      (hsource : ∀ buffer, w.request.source = .bytes buffer →
        source = .bytes buffer) :
      Turn sha w (.pollPrepare outcome) (w.countParts source)
  | failsToPrepare {outcome : PrepareOutcome} {e : S3Error}
      (hphase : w.phase = .preparing) :
      Turn sha w (.pollPrepare outcome) (w.finish (.error e))
  | waitsToPrepare {outcome : PrepareOutcome} (hphase : w.phase = .preparing) :
      Turn sha w (.pollPrepare outcome) w
  | refuses {source : PreparedMultipartSource} {n : Nat}
      (hphase : w.phase = .counted source n)
      (hflag : w.cancelled = true) :
      Turn sha w .checkCancelled (w.finish (.error S3Wire.cancelled))
  | creates {source : PreparedMultipartSource} {n : Nat}
      (hphase : w.phase = .counted source n)
      (hflag : w.cancelled = false) :
      Turn sha w .checkCancelled
        ((w.log (.createIssued w.createRequest)).goto (.creating source n))
  | created {source : PreparedMultipartSource} {n : Nat} {uploadId : UploadId}
      (hphase : w.phase = .creating source n) :
      Turn sha w (.createReturns (.ok uploadId))
        ((w.log (.createReturned (.ok uploadId))).schedule
          (Job.new (w.partContext source uploadId) n))
  | failsToCreate {source : PreparedMultipartSource} {n : Nat} {e : S3Error}
      (hphase : w.phase = .creating source n) :
      Turn sha w (.createReturns (.error e))
        ((w.log (.createReturned (.error e))).finish (.error e))
  | begins {job : Job} {number : Nat} {f : InFlight} {k : Job → Phase}
      (hk : Polling k)
      (hphase : w.phase = k job) (hf : job.find number = some f)
      (hstage : f.stage = .unpolled) :
      Turn sha w (.pollPart number)
        ((w.log (.partBegun number)).goto (k (job.setStage number .begun)))
  | panics {job : Job} {number : Nat} {f : InFlight} {k : Job → Phase}
      (hk : Polling k)
      (hphase : w.phase = k job) (hf : job.find number = some f)
      (hstage : f.stage = .unpolled)
      (hread : job.context.source.readPart job.context.partSize number =
        .error .panic) :
      Turn sha w (.pollPart number)
        (((w.log (.partBegun number)).log .panicked).goto .panicked)
  | sends {job : Job} {number : Nat} {f : InFlight} {r : UploadPartRequest}
      {k : Job → Phase}
      (hk : Polling k) (hphase : w.phase = k job)
      (hf : job.find number = some f)
      (hstage : f.stage = .begun)
      (hr : preparePart sha job.context number = .ok r) :
      Turn sha w (.sendPart number)
        ((w.log (.partSent r)).goto (k (job.setStage number .sent)))
  | takes {job : Job} {number : Nat} {reply : PartReply} {f : InFlight}
      (hphase : w.phase = .uploading job) (hf : job.find number = some f)
      (hstage : f.stage ≠ .unpolled)
      (hreply : ∀ headers, reply = .response headers → f.stage = .sent) :
      Turn sha w (.partResolves number reply)
        ((w.log (.partResolved number reply)).takeResult (job.remove number)
          (partResult number reply))
  | settles {job : Job} {primary : S3Error} {number : Nat} {reply : PartReply}
      {f : InFlight}
      (hphase : w.phase = .quiescing job primary)
      (hf : job.find number = some f)
      (hstage : f.stage ≠ .unpolled)
      (hreply : ∀ headers, reply = .response headers → f.stage = .sent) :
      Turn sha w (.partResolves number reply)
        ((w.log (.partResolved number reply)).settle
          (job.remove number) primary)
  | losesScheduler {job : Job} (hphase : w.phase = .uploading job)
      (hempty : job.pending = []) :
      Turn sha w .pendingNone
        ((w.log .schedulerLost).settle job S3Wire.schedulerLost)
  | observesCancel {job : Job} (hphase : w.phase = .uploading job)
      (hflag : w.cancelled = true) :
      Turn sha w .selectCancelled
        ((w.log .cancelObserved).settle job S3Wire.cancelled)
  | observesDeadline {job : Job} (hphase : w.phase = .uploading job)
      (hexpired : w.expired = true) :
      Turn sha w .selectDeadline
        ((w.log .deadlineObserved).settle job transferTimeout)
  | timesOut {job : Job} {primary : S3Error}
      (hphase : w.phase = .quiescing job primary) :
      Turn sha w .settleTimeout
        ((w.log .settleTimedOut).failWithAbort job.context.uploadId
        ⟨primary, some quiesceTimeout⟩)
  | waitsToComplete {uploadId : UploadId} {stage : CompletionStage}
      (hphase : w.phase = .completing uploadId stage) :
      Turn sha w (.pollComplete .pending)
        (w.goto (.completePolled uploadId
          (if stage = .unpolled then .preparing else stage)))
  | sendsCompletion {uploadId : UploadId}
      (hphase : w.phase = .completing uploadId .preparing) :
      Turn sha w (.pollComplete .sends)
        ((w.log .completeSent).goto (.completePolled uploadId .sent))
  | completes {uploadId : UploadId} {output : CompleteMultipartUploadOutput}
      (hphase : w.phase = .completing uploadId .sent) :
      Turn sha w (.pollComplete (.returns (.ok output)))
        ((w.log (.completeReturned (.ok output))).finish (.ok output))
  | failsToComplete {uploadId : UploadId} {stage : CompletionStage}
      {primary : S3Error}
      (hphase : w.phase = .completing uploadId stage) :
      Turn sha w (.pollComplete (.returns (.error primary)))
        ((w.log (.completeReturned (.error primary))).failWithAbort uploadId
          (ManagedUploadFailure.new primary))
  | givesUp {uploadId : UploadId} {stage : CompletionStage}
      (hphase : w.phase = .completePolled uploadId stage)
      (hflag : w.cancelled = true) :
      Turn sha w .pollCancelled ((w.log .cancelObserved).failWithAbort uploadId
        (ManagedUploadFailure.new S3Wire.cancelled))
  | goesOn {uploadId : UploadId} {stage : CompletionStage}
      (hphase : w.phase = .completePolled uploadId stage)
      (hflag : w.cancelled = false) :
      Turn sha w .pollCancelled (w.goto (.completing uploadId stage))
  | aborts {uploadId : UploadId} {failure : ManagedUploadFailure}
      {result : Except S3Error RequestIds}
      (hphase : w.phase = .aborting uploadId failure) :
      Turn sha w (.abortReturns result)
        ((w.log (.abortReturned result)).finish
          (.error (failure.result result)))

namespace Worker

variable {sha : Sha256} {w w' : Worker} {job : Job} {label : Label}

/-! ## The pieces with branches of their own -/

theorem turn_of_pollPrepare {outcome : PrepareOutcome}
    (hphase : w.phase = .preparing) (h : w.pollPrepare outcome = some w') :
    w.Turn sha (.pollPrepare outcome) w' := by
  unfold pollPrepare at h
  split at h
  · cases h
    exact .failsToPrepare hphase
  · split at h
    · next buffer _ hsource =>
        cases h
        refine .counts hphase fun b hb => ?_
        rw [hsource] at hb
        cases hb
        rfl
    · next path snapshot hsource =>
        cases h
        refine .counts hphase fun b hb => ?_
        rw [hsource] at hb
        cases hb
    · cases h
      exact .failsToPrepare hphase
    · split at h
      · cases h
        exact .failsToPrepare hphase
      · cases h
    · cases h
      exact .waitsToPrepare hphase

theorem turn_of_beginPart {number : Nat} {k : Job → Phase} (hk : Polling k)
    (hphase : w.phase = k job) (h : w.beginPart job number k = some w') :
    w.Turn sha (.pollPart number) w' := by
  unfold beginPart at h
  split at h
  · next hf =>
      split at h
      · next hread =>
          cases h
          exact .panics hk hphase hf rfl hread
      · cases h
        exact .begins hk hphase hf rfl
  · cases h

theorem turn_of_sendPart {number : Nat} {k : Job → Phase} (hk : Polling k)
    (hphase : w.phase = k job) (h : w.sendPart sha job number k = some w') :
    w.Turn sha (.sendPart number) w' := by
  unfold sendPart at h
  split at h
  · next hf =>
      split at h
      · next hr =>
          cases h
          exact .sends hk hphase hf rfl hr
      · cases h
  · cases h

theorem resolvePart_some {number : Nat} {reply : PartReply} {job' : Job}
    (h : w.resolvePart job number reply = some (w', job')) :
    ∃ f, job.find number = some f ∧ f.stage ≠ .unpolled ∧
      (∀ headers, reply = .response headers → f.stage = .sent) ∧
      w' = w.log (.partResolved number reply) ∧ job' = job.remove number := by
  unfold resolvePart at h
  split at h
  · next n hf =>
      cases h
      exact ⟨_, hf, by simp, fun _ _ => rfl, rfl, rfl⟩
  · next n e hf =>
      cases h
      exact ⟨_, hf, by simp, (fun _ hr => nomatch hr), rfl, rfl⟩
  · cases h

theorem turn_of_pollComplete {uploadId : UploadId} {stage : CompletionStage}
    {outcome : CompletionOutcome}
    (hphase : w.phase = .completing uploadId stage)
    (h : w.pollComplete uploadId stage outcome = some w') :
    w.Turn sha (.pollComplete outcome) w' := by
  unfold pollComplete at h
  split at h
  · cases h
    exact .waitsToComplete hphase
  · split at h
    · next hstage =>
        cases h
        exact .sendsCompletion (hstage ▸ hphase)
    · cases h
  · split at h
    · next hstage =>
        cases h
        exact .completes (hstage ▸ hphase)
    · cases h
  · cases h
    exact .failsToComplete hphase

/-! ## Every step is a turn -/

theorem turn_of_step (h : w.step sha label = some w') :
    w.Turn sha label w' := by
  unfold step at h
  split at h
  · -- cancel
    split at h
    · cases h
    · next hflag =>
        cases h
        exact .cancels (Bool.eq_false_iff.mpr hflag)
  · -- expire
    cases h
    exact .expires
  · -- pollPrepare
    next hphase => exact turn_of_pollPrepare hphase h
  · -- checkCancelled
    next hphase =>
      split at h
      · next hflag =>
          cases h
          exact .refuses hphase hflag
      · next hflag =>
          cases h
          exact .creates hphase (Bool.eq_false_iff.mpr hflag)
  · -- createReturns, successfully
    next hphase =>
      cases h
      exact .created hphase
  · -- createReturns, with an error
    next hphase =>
      cases h
      exact .failsToCreate hphase
  · -- pollPart while uploading
    next hphase => exact turn_of_beginPart .uploading hphase h
  · -- sendPart while uploading
    next hphase => exact turn_of_sendPart .uploading hphase h
  · -- partResolves while uploading
    next hphase =>
      obtain ⟨⟨w₁, job₁⟩, hres, rfl⟩ := Option.map_eq_some_iff.mp h
      obtain ⟨f, hf, hstage, hreply, rfl, rfl⟩ := resolvePart_some hres
      exact .takes hphase hf hstage hreply
  · -- pendingNone
    next hphase =>
      split at h
      · next hempty =>
          cases h
          exact .losesScheduler hphase (List.isEmpty_iff.mp hempty)
      · cases h
  · -- selectCancelled
    next hphase =>
      split at h
      · next hflag =>
          cases h
          exact .observesCancel hphase hflag
      · cases h
  · -- selectDeadline
    next hphase =>
      split at h
      · next hexpired =>
          cases h
          exact .observesDeadline hphase hexpired
      · cases h
  · -- pollPart while quiescing
    next hphase => exact turn_of_beginPart (.quiescing _) hphase h
  · -- sendPart while quiescing
    next hphase => exact turn_of_sendPart (.quiescing _) hphase h
  · -- partResolves while quiescing
    next hphase =>
      obtain ⟨⟨w₁, job₁⟩, hres, rfl⟩ := Option.map_eq_some_iff.mp h
      obtain ⟨f, hf, hstage, hreply, rfl, rfl⟩ := resolvePart_some hres
      exact .settles hphase hf hstage hreply
  · -- settleTimeout
    next hphase =>
      cases h
      exact .timesOut hphase
  · -- pollComplete
    next hphase => exact turn_of_pollComplete hphase h
  · -- pollCancelled
    next hphase =>
      split at h
      · next hflag =>
          cases h
          exact .givesUp hphase hflag
      · next hflag =>
          cases h
          exact .goesOn hphase (Bool.eq_false_iff.mpr hflag)
  · -- abortReturns
    next hphase =>
      cases h
      exact .aborts hphase
  · cases h

end Worker

end S3Wire
