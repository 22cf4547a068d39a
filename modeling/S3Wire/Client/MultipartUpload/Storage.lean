/-
# `S3Wire.Client.MultipartUpload.Storage` — any number of managed uploads at one service

What `src/client/multipart_upload.rs` is for: an object that a managed upload
leaves behind is the source of that upload, whole and in order, whoever else
uploads at the time.

The uploads are a `Lib.Fleet` of workers over one `Storage`, the service's part
of the protocol, which is not translated from anything: it gives out
identifiers, holds the bodies of parts, and joins the parts that a completion
lists.  `Storage.Lawful` is all that is asked of it.  It may hold any of the
bodies that arrived for a part, and it may refuse a completion for a reason of
its own, such as an ETag.  A request that a worker has issued can arrive at any
later time, any number of times and in any order, before or after its answer,
because the client retries and a network delays; it can also never arrive.  A
worker that is dropped takes no more steps, but what it has issued can still
arrive.

    workers   create ─▶ parts ─▶ complete │ abort
                 │        ┊ deliver   ┊      ┊      (again and again, in any order)
    storage   issued ─▶ held ────────▶ written

`Kept` is the invariant; `uploads_never_mix` is what it says at the end of any
run.
-/
import S3Wire.Lib.Fallible
import S3Wire.Lib.Fleet
import S3Wire.Client.MultipartUpload.Cancellation

namespace S3Wire

/-! ## What a step of a worker adds -/

/-- An answer is told with the label that brings it. -/
def Event.Tells (label : Label) : Event → Prop
  | .createReturned result => label = .createReturns result
  | .completeReturned result => label = .pollComplete (.returns result)
  | _ => True

/-- A step keeps the request of a worker and only adds to its history. -/
structure Grows (label : Label) (w w' : Worker) : Prop where
  request : w'.request = w.request
  history : ∃ new, w'.history = new ++ w.history ∧ ∀ e ∈ new, e.Tells label

namespace Grows

variable {label : Label} {w w' w'' : Worker} {job : Job}

theorem refl (w : Worker) : Grows label w w :=
  ⟨rfl, [], rfl, List.forall_mem_nil _⟩

theorem trans (h : Grows label w w') (h' : Grows label w' w'') :
    Grows label w w'' := by
  obtain ⟨hrequest, new, hnew, htells⟩ := h
  obtain ⟨hrequest', new', hnew', htells'⟩ := h'
  refine ⟨hrequest'.trans hrequest, new' ++ new,
    by rw [hnew', hnew, List.append_assoc], ?_⟩
  intro e he
  rcases List.mem_append.mp he with he | he
  · exact htells' e he
  · exact htells e he

theorem log (w : Worker) {e : Event} (he : e.Tells label) :
    Grows label w (w.log e) :=
  ⟨rfl, [e], rfl, fun _ hx => List.mem_singleton.mp hx ▸ he⟩

theorem goto (w : Worker) (phase : Phase) : Grows label w (w.goto phase) :=
  ⟨rfl, [], rfl, List.forall_mem_nil _⟩

theorem log_goto (w : Worker) {e : Event} (he : e.Tells label) (phase : Phase) :
    Grows label w ((w.log e).goto phase) := (log w he).trans (goto _ phase)

theorem failWithAbort (w : Worker) (id : UploadId)
    (failure : ManagedUploadFailure) :
    Grows label w (w.failWithAbort id failure) := log_goto w (by trivial) _

theorem settle (w : Worker) (job : Job) (primary : S3Error) :
    Grows label w (w.settle job primary) := by
  rw [Worker.settle]
  split
  · exact failWithAbort w _ _
  · exact goto w _

theorem startCompletion (w : Worker) (id : UploadId)
    (upload : MultipartUpload) :
    Grows label w (w.startCompletion id upload) := by
  rw [Worker.startCompletion]
  split
  · exact (log w (by trivial)).trans
      ((log _ (by trivial)).trans (failWithAbort _ _ _))
  · exact (log w (by trivial)).trans (log_goto _ (by trivial) _)

theorem schedule (w : Worker) (job : Job) : Grows label w (w.schedule job) := by
  have hpushes : Grows label w
      { w with history :=
        (job.pushedBy w.request.options.concurrency).map Event.partPushed ++
            w.history } := by
    refine ⟨rfl, _, rfl, ?_⟩
    intro e he
    obtain ⟨number, -, rfl⟩ := List.mem_map.mp he
    exact trivial
  rw [Worker.schedule]
  split
  · exact hpushes.trans (startCompletion _ _ _)
  · exact hpushes.trans (goto _ _)

theorem takeResult (w : Worker) (job : Job)
    (result : Except S3Error CompletedPart) :
    Grows label w (w.takeResult job result) := by
  rw [Worker.takeResult.eq_def]
  split
  · exact settle w _ _
  · split
    · exact (log w (by trivial)).trans (settle _ _ _)
    · exact schedule w _

theorem countParts (w : Worker) (source : PreparedMultipartSource) :
    Grows label w (w.countParts source) := by
  rw [Worker.countParts]
  split
  · exact log_goto w (by trivial) _
  · exact log_goto w (by trivial) _

theorem of_step {sha : Sha256} (h : w.step sha label = some w') :
    Grows label w w' := by
  cases Worker.turn_of_step h with
  | cancels =>
      refine ⟨rfl, [.cancelled], rfl, ?_⟩
      intro e he
      rw [List.mem_singleton.mp he]
      trivial
  | expires => exact ⟨rfl, [], rfl, List.forall_mem_nil _⟩
  | counts => exact countParts w _
  | failsToPrepare => exact goto w _
  | waitsToPrepare => exact refl w
  | refuses => exact goto w _
  | creates => exact log_goto w (by trivial) _
  | created => exact (log w (by rfl)).trans (schedule _ _)
  | failsToCreate => exact log_goto w (by rfl) _
  | begins => exact log_goto w (by trivial) _
  | panics => exact (log w (by trivial)).trans (log_goto _ (by trivial) _)
  | sends => exact log_goto w (by trivial) _
  | takes => exact (log w (by trivial)).trans (takeResult _ _ _)
  | settles => exact (log w (by trivial)).trans (settle _ _ _)
  | losesScheduler => exact (log w (by trivial)).trans (settle _ _ _)
  | observesCancel => exact (log w (by trivial)).trans (settle _ _ _)
  | observesDeadline => exact (log w (by trivial)).trans (settle _ _ _)
  | timesOut => exact (log w (by trivial)).trans (failWithAbort _ _ _)
  | waitsToComplete => exact goto w _
  | sendsCompletion => exact log_goto w (by trivial) _
  | completes => exact log_goto w (by rfl) _
  | failsToComplete => exact (log w (by rfl)).trans (failWithAbort _ _ _)
  | givesUp => exact (log w (by trivial)).trans (failWithAbort _ _ _)
  | goesOn => exact goto w _
  | aborts => exact log_goto w (by trivial) _

theorem subset (h : Grows label w w') : w.history ⊆ w'.history := by
  obtain ⟨-, new, hnew, -⟩ := h
  rw [hnew]
  exact List.subset_append_right _ _

theorem tells (h : Grows label w w') {e : Event} (he : e ∈ w'.history) :
    e ∈ w.history ∨ e.Tells label := by
  obtain ⟨-, new, hnew, htells⟩ := h
  rw [hnew] at he
  rcases List.mem_append.mp he with he | he
  · exact Or.inr (htells e he)
  · exact Or.inl he

end Grows

/-! ## Requests go to the upload of the worker -/

/-- The identifier was given to the worker. -/
def Worker.Owns (w : Worker) (id : UploadId) : Prop :=
  .createReturned (.ok id) ∈ w.history

/-- What a request is addressed to, in its history. -/
def Addressed (key : ObjectKey) : Event → List Event → Prop
  | .partSent r, past => r.key = key ∧ .createReturned (.ok r.uploadId) ∈ past
  | .completeIssued r, _ => r.key = key
  | _, _ => True

/-- The job of a phase is for the key. -/
def Phase.KeyedBy (key : ObjectKey) : Phase → Prop
  | .uploading job => job.context.key = key ∧ job.upload.key = key
  | .quiescing job _ => job.context.key = key
  | _ => True

/-- Every request of a worker goes to its own key and to the upload it was
given. -/
structure Aimed (w : Worker) : Prop where
  phase : w.phase.KeyedBy w.request.key
  addressed : Lib.Justified (Addressed w.request.key) w.history

section Aimed

variable {w w' : Worker} {job : Job}

theorem aimed_failWithAbort {id : UploadId} {failure : ManagedUploadFailure}
    (h : Lib.Justified (Addressed w.request.key) w.history) :
    Aimed (w.failWithAbort id failure) :=
  ⟨trivial, trivial, h⟩

theorem aimed_settle {primary : S3Error}
    (hkey : job.context.key = w.request.key)
    (h : Lib.Justified (Addressed w.request.key) w.history) :
    Aimed (w.settle job primary) := by
  rw [Worker.settle]
  split
  · exact aimed_failWithAbort h
  · exact ⟨hkey, h⟩

theorem aimed_startCompletion {id : UploadId} {upload : MultipartUpload}
    (hkey : upload.key = w.request.key)
    (h : Lib.Justified (Addressed w.request.key) w.history) :
    Aimed (w.startCompletion id upload) := by
  rw [Worker.startCompletion]
  split
  · exact ⟨trivial, trivial, trivial, trivial, h⟩
  · next completion hcompletion =>
      have hto : completion.key = upload.key := by
        rw [CompleteMultipartUploadRequest.new] at hcompletion
        split at hcompletion
        · cases hcompletion
        · cases hcompletion
          rfl
      exact ⟨trivial, hto.trans hkey, trivial, h⟩

theorem aimed_schedule (hkey : job.context.key = w.request.key)
    (hupload : job.upload.key = w.request.key)
    (h : Lib.Justified (Addressed w.request.key) w.history) :
    Aimed (w.schedule job) := by
  have hpushes : ∀ numbers : List Nat,
      Lib.Justified (Addressed w.request.key)
          (numbers.map Event.partPushed ++ w.history) := by
    intro numbers
    induction numbers with
    | nil => exact h
    | cons number numbers ih => exact ⟨trivial, ih⟩
  rw [Worker.schedule]
  split
  · exact aimed_startCompletion hupload (hpushes _)
  · exact ⟨⟨hkey, hupload⟩, hpushes _⟩

theorem aimed_takeResult {result : Except S3Error CompletedPart}
    (hkey : job.context.key = w.request.key)
    (hupload : job.upload.key = w.request.key)
    (h : Lib.Justified (Addressed w.request.key) w.history) :
    Aimed (w.takeResult job result) := by
  rw [Worker.takeResult.eq_def]
  split
  · exact aimed_settle hkey h
  · split
    · exact @aimed_settle (w.log _) _ _ hkey ⟨trivial, h⟩
    · next upload hrecord =>
        exact @aimed_schedule w { job with upload := upload } hkey
          ((MultipartUpload.recordPart_ok hrecord).1.trans hupload) h

theorem aimed_countParts {source : PreparedMultipartSource}
    (h : Lib.Justified (Addressed w.request.key) w.history) :
    Aimed (w.countParts source) := by
  rw [Worker.countParts]
  split
  · exact ⟨trivial, trivial, h⟩
  · exact ⟨trivial, trivial, h⟩

theorem keyedBy_setStage {k : Job → Phase} (hk : Polling k) {key : ObjectKey}
    (number : Nat) (stage : PartStage) (h : (k job).KeyedBy key) :
    (k (job.setStage number stage)).KeyedBy key := by
  cases hk with
  | uploading => exact h
  | quiescing primary => exact h

theorem key_of_polling {k : Job → Phase} (hk : Polling k) {key : ObjectKey}
    (h : (k job).KeyedBy key) :
    job.context.key = key := by
  cases hk with
  | uploading => exact h.1
  | quiescing primary => exact h

theorem addressed_of_prepared {sha : Sha256} {context : PartUploadContext}
    {number : Nat} {r : UploadPartRequest}
    (h : preparePart sha context number = .ok r) :
    r.key = context.key ∧ r.uploadId = context.uploadId := by
  rw [preparePart] at h
  split at h
  · cases h
  split at h
  · cases h
  split at h
  · cases h
  · cases h
    exact ⟨rfl, rfl⟩

theorem aimed_step {sha : Sha256} {label : Label}
    (h : w.step sha label = some w') (hi : Inv w.request w) (ha : Aimed w) :
    Aimed w' := by
  have hphased := hi.phase
  have hkeyed := ha.phase
  have haddressed := ha.addressed
  cases Worker.turn_of_step h with
  | cancels => exact ⟨hkeyed, trivial, haddressed⟩
  | expires => exact ⟨hkeyed, haddressed⟩
  | counts => exact aimed_countParts haddressed
  | failsToPrepare => exact ⟨trivial, haddressed⟩
  | waitsToPrepare => exact ha
  | refuses => exact ⟨trivial, haddressed⟩
  | creates => exact ⟨trivial, trivial, haddressed⟩
  | @created source n id hphase =>
      exact @aimed_schedule (w.log (.createReturned (.ok id))) _ rfl rfl
        ⟨trivial, haddressed⟩
  | failsToCreate => exact ⟨trivial, trivial, haddressed⟩
  | @begins job number f k hk hphase =>
      rw [hphase] at hkeyed
      exact ⟨keyedBy_setStage hk number .begun hkeyed, trivial, haddressed⟩
  | panics => exact ⟨trivial, trivial, trivial, haddressed⟩
  | @sends job number f r k hk hphase hf hstage hr =>
      rw [hphase] at hkeyed hphased
      obtain ⟨hkey, hid⟩ := addressed_of_prepared hr
      refine ⟨keyedBy_setStage hk number .sent hkeyed,
        ⟨hkey.trans (key_of_polling hk hkeyed), ?_⟩, haddressed⟩
      rw [hid]
      cases hk with
      | uploading => exact hphased.1.created
      | quiescing primary => exact hphased.1.created
  | @takes job number reply f hphase =>
      rw [hphase] at hkeyed
      exact @aimed_takeResult (w.log (.partResolved number reply))
        (job.remove number) _ hkeyed.1 hkeyed.2
        ⟨trivial, haddressed⟩
  | @settles job primary number reply f hphase =>
      rw [hphase] at hkeyed
      exact @aimed_settle (w.log (.partResolved number reply))
        (job.remove number) _ hkeyed ⟨trivial, haddressed⟩
  | losesScheduler hphase =>
      rw [hphase] at hkeyed
      exact @aimed_settle (w.log .schedulerLost) _ _ hkeyed.1
        ⟨trivial, haddressed⟩
  | observesCancel hphase =>
      rw [hphase] at hkeyed
      exact @aimed_settle (w.log .cancelObserved) _ _ hkeyed.1
        ⟨trivial, haddressed⟩
  | observesDeadline hphase =>
      rw [hphase] at hkeyed
      exact @aimed_settle (w.log .deadlineObserved) _ _ hkeyed.1
        ⟨trivial, haddressed⟩
  | timesOut =>
      exact @aimed_failWithAbort (w.log .settleTimedOut) _ _
        ⟨trivial, haddressed⟩
  | waitsToComplete => exact ⟨trivial, haddressed⟩
  | sendsCompletion => exact ⟨trivial, trivial, haddressed⟩
  | completes => exact ⟨trivial, trivial, haddressed⟩
  | @failsToComplete uploadId stage primary =>
      exact @aimed_failWithAbort
        (w.log (.completeReturned (.error primary))) _ _ ⟨trivial, haddressed⟩
  | givesUp =>
      exact @aimed_failWithAbort (w.log .cancelObserved) _ _
        ⟨trivial, haddressed⟩
  | goesOn => exact ⟨trivial, haddressed⟩
  | aborts => exact ⟨trivial, trivial, haddressed⟩

end Aimed

/-! ## The service -/

/-- The body of a part, and what it is a part of. -/
structure HeldPart where
  uploadId : UploadId
  key : ObjectKey
  number : Nat
  body : Bytes

/-- An object that was written, and the upload whose completion wrote it. -/
structure Written where
  uploadId : UploadId
  key : ObjectKey
  bytes : Bytes

/-- What arrives with the request. -/
def UploadPartRequest.part (r : UploadPartRequest) : HeldPart :=
  ⟨r.uploadId, r.key, r.partNumber.get, r.body⟩

/-- What a service does with a request that arrives, and what its state says. -/
structure Storage (σ : Type) where
  start : σ
  /-- Give out an identifier; `none` for one that it would not give out. -/
  create : σ → ObjectKey → UploadId → Option σ
  uploadPart : σ → UploadPartRequest → σ
  complete : σ → CompleteMultipartUploadRequest → σ
  abort : σ → AbortMultipartUploadRequest → σ
  /-- A completion of this upload may be answered with a success. -/
  confirms : σ → UploadId → Bool
  /-- What was written, latest first: the first entry of a key is its object. -/
  written : σ → List Written
  issued : σ → UploadId → Prop
  holds : σ → HeldPart → Prop

namespace Storage

variable {σ : Type}

/-- No identifier is forgotten, and no body appears. -/
structure Keeps (S : Storage σ) (s s' : σ) : Prop where
  issued : ∀ {id}, S.issued s id → S.issued s' id
  holds : ∀ {part}, S.holds s' part → S.holds s part

/-- The completion wrote an object: the parts that it lists, joined, each with a
body that was held for it, and it is the first one of its upload to do so. -/
def Writes (S : Storage σ) (s : σ) (r : CompleteMultipartUploadRequest)
    (s' : σ) : Prop :=
  (∀ object ∈ S.written s, object.uploadId ≠ r.uploadId) ∧
    ∃ bodies,
        List.Forall₂
          (fun part body => S.holds s ⟨r.uploadId, r.key, part.number, body⟩)
        r.completedParts bodies ∧
      S.written s' = ⟨r.uploadId, r.key, bodies.flatten⟩ :: S.written s

/-- What is asked of a service: an identifier is given out once; what is held
for a part has arrived for it; nothing but a completion writes, and it writes
what it should or nothing; a completion is confirmed only if one was carried
out. -/
structure Lawful (S : Storage σ) : Prop where
  start_holds : ∀ {part}, ¬ S.holds S.start part
  start_written : S.written S.start = []
  create_fresh : ∀ {s key id s'}, S.create s key id = some s' → ¬ S.issued s id
  create_issues : ∀ {s key id s'}, S.create s key id = some s' → S.issued s' id
  create_keeps : ∀ {s key id s'}, S.create s key id = some s' → S.Keeps s s'
  create_written : ∀ {s key id s'}, S.create s key id = some s' →
    S.written s' = S.written s
  uploadPart_issued : ∀ {s r id}, S.issued s id → S.issued (S.uploadPart s r) id
  uploadPart_holds : ∀ {s r part}, S.holds (S.uploadPart s r) part →
    S.holds s part ∨ part = r.part
  uploadPart_written : ∀ {s r}, S.written (S.uploadPart s r) = S.written s
  complete_keeps : ∀ {s r}, S.Keeps s (S.complete s r)
  complete_writes : ∀ {s r}, S.written (S.complete s r) = S.written s ∨
    S.Writes s r (S.complete s r)
  abort_keeps : ∀ {s r}, S.Keeps s (S.abort s r)
  abort_written : ∀ {s r}, S.written (S.abort s r) = S.written s
  confirms_written : ∀ {s id}, S.confirms s id = true → ∃ object ∈ S.written s,
    object.uploadId = id

end Storage

/-! ## The uploads at a service -/

/-- What happens next to an upload: its task takes a step, or a request of it
arrives. -/
inductive UploaderLabel where
  | work (label : Label)
  /-- What the entry of the history at this place has sent arrives. -/
  | arrive (place : Nat)

namespace Worker

variable {σ : Type} (S : Storage σ) (sha : Sha256)

/-- A step, in which the service answers: with an identifier that it gives out,
with a success of a completion that it confirms. -/
def workAt (w : Worker) (s : σ) (label : Label) : Option (Worker × σ) :=
  match w.phase, label with
  | .creating _ _, .createReturns (.ok id) =>
      match S.create s w.request.key id with
      | none => none
      | some s' => (w.step sha label).map fun w' => (w', s')
  | .completing id _, .pollComplete (.returns (.ok _)) =>
      if S.confirms s id then (w.step sha label).map fun w' => (w', s) else none
  | _, _ => (w.step sha label).map fun w' => (w', s)

/-- A request arrives that was sent before; the worker does not notice. -/
def arriveAt (w : Worker) (s : σ) (place : Nat) : Option (Worker × σ) :=
  match w.history[place]? with
  | some (.partSent r) => some (w, S.uploadPart s r)
  | some (.completeIssued r) =>
      if w.history.any Event.isCompleteSent then some (w, S.complete s r)
      else none
  | some (.abortIssued r) => some (w, S.abort s r)
  | _ => none

def actAt (w : Worker) (s : σ) : UploaderLabel → Option (Worker × σ)
  | .work label => w.workAt S sha s label
  | .arrive place => w.arriveAt S s place

end Worker

/-- Managed uploads at one service. -/
abbrev Uploads (σ : Type) := Lib.Fleet Worker σ

namespace Uploads

variable {σ : Type}

abbrev Label := Lib.FleetLabel ManagedMultipartUploadRequest UploaderLabel

/-- One interleaving of the tasks and of what arrives. -/
def step (S : Storage σ) (sha : Sha256) : Uploads σ → Label →
    Option (Uploads σ) :=
  Lib.Fleet.step Worker.init (Worker.actAt S sha)

def new (S : Storage σ) : Uploads σ := ⟨[], S.start⟩

end Uploads

/-! ## What every run keeps -/

namespace Worker

/-- The bytes of the source of the worker. -/
def Sources (w : Worker) (bytes : Bytes) : Prop :=
  ∃ source, .prepared source ∈ w.history ∧ source.content = bytes

/-- The object is the worker's: its upload, its key, its whole source, and it
asked for it. -/
def Wrote (w : Worker) (object : Written) : Prop :=
  w.Owns object.uploadId ∧ w.request.key = object.key ∧
    .completeSent ∈ w.history ∧ w.Sources object.bytes

/-- The worker has sent this body for this part. -/
def Sent (w : Worker) (part : HeldPart) : Prop :=
  ∃ r, .partSent r ∈ w.history ∧ r.part = part

end Worker

namespace Grows

variable {label : Label} {w w' : Worker}

theorem sent (h : Grows label w w') {part : HeldPart} (hsent : w.Sent part) :
    w'.Sent part := by
  obtain ⟨r, hr, heq⟩ := hsent
  exact ⟨r, h.subset hr, heq⟩

theorem wrote (h : Grows label w w') {object : Written}
    (hwrote : w.Wrote object) : w'.Wrote object := by
  obtain ⟨howned, hkey, hsent, source, hsource, hcontent⟩ := hwrote
  exact ⟨h.subset howned, h.request ▸ hkey, h.subset hsent, source,
    h.subset hsource, hcontent⟩

end Grows

/-- The invariant of the uploads at a service. -/
structure Kept {σ : Type} (S : Storage σ) (f : Uploads σ) : Prop where
  members : ∀ w ∈ f.members, Inv w.request w ∧ Aimed w
  issued : ∀ w ∈ f.members, ∀ id, w.Owns id → S.issued f.shared id
  apart : ∀ (i j : Nat) (w w' : Worker) (id : UploadId),
    f.members[i]? = some w → f.members[j]? = some w' →
    w.Owns id → w'.Owns id → i = j
  holds : ∀ part, S.holds f.shared part → ∃ w ∈ f.members, w.Sent part
  written : ∀ object ∈ S.written f.shared, ∃ w ∈ f.members, w.Wrote object
  returned : ∀ w ∈ f.members, ∀ output,
    .completeReturned (.ok output) ∈ w.history →
    ∀ id, w.Owns id → ∃ object ∈ S.written f.shared, object.uploadId = id
  once : (S.written f.shared).Pairwise fun object other =>
    other.uploadId ≠ object.uploadId

/-! ### What a completion joins -/

section Requests

variable {w : Worker}

theorem owns_of_sent (ha : Aimed w) {part : HeldPart} (hsent : w.Sent part) :
    w.Owns part.uploadId := by
  obtain ⟨r, hr, rfl⟩ := hsent
  obtain ⟨past, hsuffix, -, hcreated⟩ := ha.addressed.of_mem hr
  exact hsuffix.subset hcreated

theorem key_of_issued (ha : Aimed w) {r : CompleteMultipartUploadRequest}
    (hr : .completeIssued r ∈ w.history) :
    r.key = w.request.key := by
  obtain ⟨past, -, hkey⟩ := ha.addressed.of_mem hr
  exact hkey

/-- **The parts that a completion lists are the source.**  Whichever of the
bodies that were sent for a part is joined, it is the one that was read for
it. -/
theorem sources_of_sent (hi : Inv w.request w)
    {r : CompleteMultipartUploadRequest} (hr : .completeIssued r ∈ w.history)
    {bodies : List Bytes}
    (h : List.Forall₂
      (fun part body => w.Sent ⟨r.uploadId, r.key, part.number, body⟩)
        r.completedParts bodies) :
    w.Sources bodies.flatten := by
  have hlaw := hi.lawful
  have hk : 0 < w.request.options.partSize :=
    lt_of_lt_of_le (by decide) w.request.options.partSize_ge
  obtain ⟨past, hsuffix, managed, rest, rfl, hparts, -⟩ := hlaw.of_mem hr
  have hup : .partsUploaded managed ∈ w.history :=
    hsuffix.subset (List.mem_cons_self ..)
  obtain ⟨past', hsuffix', -, -, source, n, hsource, hcount, -⟩ :=
    hlaw.of_mem hup
  have hprepared : .prepared source ∈ w.history := hsuffix'.subset hsource
  obtain ⟨hnumbers, -⟩ := uploaded_of_mem hlaw hprepared hcount hup
  obtain ⟨hbodies, hflatten⟩ := bodies_cover hk hcount
  have hknown : ∀ part ∈ r.completedParts, ∀ body,
      w.Sent ⟨r.uploadId, r.key, part.number, body⟩ →
      body = Lib.piece w.request.options.partSize source.content
          (part.number - 1) := by
    rintro part hpart body ⟨sent, hsent, heq⟩
    obtain ⟨-, -, hnumber, rfl⟩ := HeldPart.mk.inj heq
    have hread := body_of_sent hlaw hprepared hsent
    have hmem : part.number ∈ (List.range n).map (· + 1) :=
      hnumbers ▸ List.mem_map_of_mem (hparts ▸ hpart)
    obtain ⟨i, hin, hpi⟩ := List.mem_map.mp hmem
    have hin := List.mem_range.mp hin
    rw [hnumber, (hbodies part.number (by omega) (by omega)).1] at hread
    exact (Except.ok.inj hread).symm
  refine ⟨source, hprepared, ?_⟩
  have hmap : managed.completedParts.map (fun part =>
        Lib.piece w.request.options.partSize source.content (part.number - 1)) =
      (managed.completedParts.map CompletedPart.number).map fun i =>
        Lib.piece w.request.options.partSize source.content (i - 1) := by
    rw [List.map_map]
    rfl
  rw [Lib.forall₂_eq_map h hknown, hparts, hmap, hnumbers, List.map_map]
  exact hflatten.symm

end Requests

namespace Kept

variable {σ : Type} {S : Storage σ} {sha : Sha256} {f : Uploads σ} {i : Nat}
  {w w' : Worker} {label : Label}
  {s : σ}

theorem new (hS : S.Lawful) : Kept S (Uploads.new S) where
  members _ h := absurd h List.not_mem_nil
  issued _ h := absurd h List.not_mem_nil
  apart _ _ _ _ _ h := nomatch h
  holds _ h := absurd h hS.start_holds
  written _ h := absurd (hS.start_written ▸ h) List.not_mem_nil
  returned _ h := absurd h List.not_mem_nil
  once := by
    rw [Uploads.new, hS.start_written]
    exact .nil

theorem join (hf : Kept S f) (q : ManagedMultipartUploadRequest) :
    Kept S { f with members := f.members ++ [Worker.init q] } := by
  have hfresh : ∀ e, e ∉ (Worker.init q).history := fun _ => List.not_mem_nil
  have hat : ∀ {j : Nat} {w : Worker} {id : UploadId},
      (f.members ++ [Worker.init q])[j]? = some w → w.Owns id →
      f.members[j]? = some w := by
    intro j w id hj hid
    rcases List.getElem?_append.symm.trans hj with h
    split at h
    · exact h
    · obtain rfl := List.mem_singleton.mp (List.mem_of_getElem? h)
      exact absurd hid (hfresh _)
  have hold : ∀ {P : Worker → Prop}, (∃ w ∈ f.members, P w) →
      ∃ w ∈ f.members ++ [Worker.init q], P w := by
    rintro P ⟨w, hw, hP⟩
    exact ⟨w, List.mem_append_left _ hw, hP⟩
  refine ⟨?_, ?_, ?_, fun part hpart => hold (hf.holds part hpart),
    fun o ho => hold (hf.written o ho), ?_, hf.once⟩
  · exact Lib.Fleet.forall_join hf.members ⟨inv_init, trivial, trivial⟩
  · exact Lib.Fleet.forall_join hf.issued fun id hid => absurd hid (hfresh _)
  · intro i j w w' id hi hj hw hw'
    exact hf.apart i j w w' id (hat hi hw) (hat hj hw') hw hw'
  · exact Lib.Fleet.forall_join hf.returned fun output _ id hid =>
      absurd hid (hfresh _)

/-- A worker that goes on, at a service that gives out an identifier or does
nothing. -/
theorem grow (hf : Kept S f) (hi : f.members[i]? = some w)
    (hgrows : Grows label w w') (hkeeps : Inv w'.request w' ∧ Aimed w')
    (hservice : S.Keeps f.shared s)
    (hwritten : S.written s = S.written f.shared)
    (howns : ∀ id, w'.Owns id → w.Owns id ∨
      (¬ S.issued f.shared id ∧ S.issued s id))
    (hreturned : ∀ output, .completeReturned (.ok output) ∈ w'.history →
      ∀ id, w'.Owns id → ∃ object ∈ S.written f.shared, object.uploadId = id) :
    Kept S ⟨f.members.set i w', s⟩ := by
  have hmem : w ∈ f.members := List.mem_of_getElem? hi
  have hin : i < f.members.length := (List.getElem?_eq_some_iff.mp hi).1
  have hother : ∀ {j : Nat} {x : Worker}, (f.members.set i w')[j]? = some x →
      (j = i ∧ x = w') ∨ (j ≠ i ∧ f.members[j]? = some x) := by
    intro j x hj
    by_cases hij : i = j
    · subst hij
      rw [List.getElem?_set_self hin] at hj
      exact Or.inl ⟨rfl, (Option.some.inj hj).symm⟩
    · rw [List.getElem?_set_ne hij] at hj
      exact Or.inr ⟨fun h => hij h.symm, hj⟩
  -- an identifier that is new to the worker is new to all
  have hapart : ∀ {j : Nat} {x : Worker} {id : UploadId}, j ≠ i →
      f.members[j]? = some x → x.Owns id →
      ¬ w'.Owns id := by
    intro j x id hji hj hx hid
    rcases howns id hid with hid | ⟨hfresh, -⟩
    · exact hji (hf.apart j i x w id hj hi hx hid)
    · exact hfresh (hf.issued x (List.mem_of_getElem? hj) id hx)
  refine ⟨?_, ?_, ?_, ?_, ?_, ?_, ?_⟩
  · exact Lib.Fleet.forall_set hf.members hkeeps
  · refine Lib.Fleet.forall_set
      (fun x hx id hid => hservice.issued (hf.issued x hx id hid)) ?_
    intro id hid
    rcases howns id hid with hid | ⟨-, hgiven⟩
    · exact hservice.issued (hf.issued w hmem id hid)
    · exact hgiven
  · intro j k x y id hj hk hx hy
    rcases hother hj with ⟨rfl, rfl⟩ | ⟨hji, hj'⟩
    · rcases hother hk with ⟨rfl, rfl⟩ | ⟨hki, hk'⟩
      · rfl
      · exact absurd hx (hapart hki hk' hy)
    · rcases hother hk with ⟨rfl, rfl⟩ | ⟨hki, hk'⟩
      · exact absurd hy (hapart hji hj' hx)
      · exact hf.apart j k x y id hj' hk' hx hy
  · intro part hpart
    exact Lib.Fleet.exists_set hi hgrows.sent
      (hf.holds part (hservice.holds hpart))
  · intro object hobject
    rw [hwritten] at hobject
    exact Lib.Fleet.exists_set hi hgrows.wrote (hf.written object hobject)
  · rw [hwritten]
    exact Lib.Fleet.forall_set hf.returned hreturned
  · rw [hwritten]
    exact hf.once

theorem eq_of_owns (hf : Kept S f) (hi : f.members[i]? = some w) {w₂ : Worker}
    (hw₂ : w₂ ∈ f.members) {id : UploadId} (hid : w.Owns id)
    (hid₂ : w₂.Owns id) : w₂ = w := by
  obtain ⟨j, hj⟩ := List.getElem?_of_mem hw₂
  obtain rfl := hf.apart j i w₂ w id hj hi hid₂ hid
  exact Option.some.inj (hj.symm.trans hi)

theorem serve (hf : Kept S f)
    (hissued : ∀ id, S.issued f.shared id → S.issued s id)
    (hholds : ∀ part, S.holds s part → ∃ w ∈ f.members, w.Sent part)
    (hwritten : S.written s = S.written f.shared) :
    Kept S { f with shared := s } where
  members := hf.members
  issued w hw id hid := hissued id (hf.issued w hw id hid)
  apart := hf.apart
  holds := hholds
  written object hobject := hf.written object (hwritten ▸ hobject)
  returned w hw output hout id hid :=
    hwritten ▸ hf.returned w hw output hout id hid
  once := hwritten ▸ hf.once

theorem uploadPart (hS : S.Lawful) (hf : Kept S f) (hi : f.members[i]? = some w)
    {r : UploadPartRequest} (hr : .partSent r ∈ w.history) :
    Kept S { f with shared := S.uploadPart f.shared r } := by
  refine hf.serve
    (fun id hid => hS.uploadPart_issued hid) ?_ hS.uploadPart_written
  intro part hpart
  rcases hS.uploadPart_holds hpart with hold | rfl
  · exact hf.holds part hold
  · exact ⟨w, List.mem_of_getElem? hi, r, hr, rfl⟩

theorem abort (hS : S.Lawful) (hf : Kept S f)
    (r : AbortMultipartUploadRequest) :
    Kept S { f with shared := S.abort f.shared r } :=
  hf.serve (fun _ hid => hS.abort_keeps.issued hid)
    (fun part hpart => hf.holds part (hS.abort_keeps.holds hpart))
    hS.abort_written

/-- A completion that arrives writes the source of the worker, or nothing. -/
theorem complete (hS : S.Lawful) (hf : Kept S f) (hi : f.members[i]? = some w)
    {r : CompleteMultipartUploadRequest} (hr : .completeIssued r ∈ w.history)
    (hsent : .completeSent ∈ w.history) :
    Kept S { f with shared := S.complete f.shared r } := by
  have hmem := List.mem_of_getElem? hi
  obtain ⟨hinv, haimed⟩ := hf.members w hmem
  have howned : w.Owns r.uploadId := created_of_completeIssued hinv.lawful hr
  have hkeeps : S.Keeps f.shared (S.complete f.shared r) := hS.complete_keeps
  rcases hS.complete_writes with hsame | ⟨hfirst, bodies, hheld, hwrites⟩
  · exact hf.serve (fun id hid => hkeeps.issued hid)
      (fun part hpart => hf.holds part (hkeeps.holds hpart)) hsame
  -- what is held for the upload of the worker, the worker has sent
  have hown : ∀ part body, S.holds f.shared ⟨r.uploadId, r.key, part, body⟩ →
      w.Sent ⟨r.uploadId, r.key, part, body⟩ := by
    intro part body hpart
    obtain ⟨w₂, hw₂, hsent₂⟩ := hf.holds _ hpart
    obtain rfl :=
      hf.eq_of_owns hi hw₂ howned (owns_of_sent (hf.members w₂ hw₂).2 hsent₂)
    exact hsent₂
  have hsources :=
    sources_of_sent hinv hr
      (hheld.imp fun (part : CompletedPart) body => hown part.number body)
  refine ⟨hf.members, fun x hx id hid => hkeeps.issued (hf.issued x hx id hid),
    hf.apart,
    fun part hpart => hf.holds part (hkeeps.holds hpart), ?_, ?_, ?_⟩
  · rw [hwrites]
    exact List.forall_mem_cons.mpr
      ⟨⟨w, hmem, howned, (key_of_issued haimed hr).symm, hsent, hsources⟩,
        hf.written⟩
  · intro x hx output hout id hid
    obtain ⟨object, hobject, heq⟩ := hf.returned x hx output hout id hid
    rw [hwrites]
    exact ⟨object, List.mem_cons_of_mem _ hobject, heq⟩
  · rw [hwrites]
    exact .cons hfirst hf.once

theorem arriveAt (hS : S.Lawful) (hf : Kept S f) (hi : f.members[i]? = some w)
    {place : Nat} (h : w.arriveAt S f.shared place = some (w', s)) :
    Kept S ⟨f.members.set i w', s⟩ := by
  have hsame : f.members.set i w = f.members := by
    obtain ⟨hin, rfl⟩ := List.getElem?_eq_some_iff.mp hi
    exact List.set_getElem_self hin
  rw [Worker.arriveAt] at h
  split at h
  · next r hat =>
      cases h
      rw [hsame]
      exact hf.uploadPart hS hi (List.mem_of_getElem? hat)
  · next r hat =>
      split at h
      · next hsent =>
          cases h
          rw [hsame]
          obtain ⟨e, he, hkind⟩ := List.any_eq_true.mp hsent
          cases e with
          | completeSent =>
              exact hf.complete hS hi (List.mem_of_getElem? hat) he
          | _ => cases hkind
      · cases h
  · next r hat =>
      cases h
      rw [hsame]
      exact hf.abort hS r
  · cases h

theorem keeps_step (hf : Kept S f) (hi : f.members[i]? = some w)
    (h : w.step sha label = some w') :
    Grows label w w' ∧ Inv w'.request w' ∧ Aimed w' := by
  have hgrows := Grows.of_step h
  obtain ⟨hinv, haimed⟩ := hf.members w (List.mem_of_getElem? hi)
  refine ⟨hgrows, ?_, aimed_step h hinv haimed⟩
  rw [hgrows.request]
  exact inv_step h hinv

theorem step_created {id : UploadId}
    (h : w.step sha (.createReturns (.ok id)) = some w') :
    ∃ source n, w.phase = .creating source n := by
  cases Worker.turn_of_step h with
  | created hphase => exact ⟨_, _, hphase⟩

theorem step_completed {output : CompleteMultipartUploadOutput}
    (h : w.step sha (.pollComplete (.returns (.ok output))) = some w') :
    ∃ id, w.phase = .completing id .sent := by
  cases Worker.turn_of_step h with
  | completes hphase => exact ⟨_, hphase⟩

theorem workAt (hS : S.Lawful) (hf : Kept S f) (hi : f.members[i]? = some w)
    (h : w.workAt S sha f.shared label = some (w', s)) :
    Kept S ⟨f.members.set i w', s⟩ := by
  have hmem := List.mem_of_getElem? hi
  have hinv := (hf.members w hmem).1
  have hphased := hinv.phase
  rw [Worker.workAt.eq_def] at h
  split at h
  · -- the service answers with an identifier
    next source n id hphase =>
      split at h
      · cases h
      next s₁ hcreate =>
      obtain ⟨w₁, hstep, heq⟩ := Option.map_eq_some_iff.mp h
      cases heq
      obtain ⟨hgrows, hkeeps⟩ := hf.keeps_step hi hstep
      refine hf.grow hi hgrows hkeeps (hS.create_keeps hcreate)
        (hS.create_written hcreate) ?_ ?_
      · intro id' hid'
        rcases hgrows.tells hid' with hold | htells
        · exact Or.inl hold
        · cases htells
          exact Or.inr ⟨hS.create_fresh hcreate, hS.create_issues hcreate⟩
      · intro output hout id' hid'
        rcases hgrows.tells hout with hold | htells
        · rw [hphase] at hphased
          rcases hphased.2.2.2 _ hold with heq | heq | ⟨_, heq⟩
          · cases heq
          · cases heq
          · cases heq
        · cases htells
  · -- the service confirms a completion
    next id stage output hphase =>
      split at h
      · next hdone =>
          obtain ⟨w₁, hstep, heq⟩ := Option.map_eq_some_iff.mp h
          cases heq
          obtain ⟨hgrows, hkeeps⟩ := hf.keeps_step hi hstep
          have howns : ∀ id', w'.Owns id' → w.Owns id' := by
            intro id' hid'
            rcases hgrows.tells hid' with hold | htells
            · exact hold
            · cases htells
          refine hf.grow hi hgrows hkeeps
            ⟨fun hid => hid, fun hpart => hpart⟩ rfl
            (fun id' hid' => Or.inl (howns id' hid')) ?_
          intro output' _ id' hid'
          rw [hphase] at hphased
          rw [created_unique hinv.lawful (howns id' hid') hphased.created]
          exact hS.confirms_written hdone
      · cases h
  · next hcreate hcomplete =>
      obtain ⟨w₁, hstep, heq⟩ := Option.map_eq_some_iff.mp h
      cases heq
      obtain ⟨hgrows, hkeeps⟩ := hf.keeps_step hi hstep
      have howns : ∀ id', w'.Owns id' → w.Owns id' := by
        intro id' hid'
        rcases hgrows.tells hid' with hold | htells
        · exact hold
        · cases htells
          obtain ⟨source, n, hphase⟩ := step_created hstep
          exact (hcreate source n id' hphase rfl).elim
      refine hf.grow hi hgrows hkeeps ⟨fun hid => hid, fun hpart => hpart⟩ rfl
        (fun id' hid' => Or.inl (howns id' hid')) ?_
      intro output hout id' hid'
      rcases hgrows.tells hout with hold | htells
      · exact hf.returned w hmem output hold id' (howns id' hid')
      · cases htells
        obtain ⟨id, hphase⟩ := step_completed hstep
        exact (hcomplete id .sent output hphase rfl).elim

/-- **Every step keeps it.** -/
theorem step (hS : S.Lawful) {label : Uploads.Label} {f' : Uploads σ}
    (h : Uploads.step S sha f label = some f') (hf : Kept S f) : Kept S f' := by
  cases label with
  | join q =>
      cases h
      exact hf.join q
  | act i label =>
      obtain ⟨w, w', s, hi, hact, rfl⟩ := Lib.Fleet.step_act h
      cases label with
      | work label => exact hf.workAt hS hi hact
      | arrive place => exact hf.arriveAt hS hi hact

theorem of_run (hS : S.Lawful) {labels : List Uploads.Label}
    (h : Lib.exec (Uploads.step S sha) (Uploads.new S) labels = some f) :
    Kept S f :=
  Lib.exec_invariant (step hS) h (new hS)

/-- An upload owns at most one of the objects that were written. -/
theorem once_each (hf : Kept S f) :
    (S.written f.shared).Pairwise fun object other =>
    ∀ w ∈ f.members, w.Owns object.uploadId → ¬ w.Owns other.uploadId := by
  refine hf.once.imp ?_
  intro object other hne w hw howned hother
  exact hne (created_unique (hf.members w hw).1.lawful hother howned)

end Kept

/-! ## What is stored -/

/-- **Uploads never mix.**  However many managed uploads run at one service,
with whatever keys, in whatever interleaving, and however their requests are
repeated, delayed, reordered and lost: every object is the whole source of the
upload that it was written for, to its key, and that upload asked for it; an
upload that has returned a success has its source among what was written under
its key; and no upload writes twice. -/
theorem uploads_never_mix {σ : Type} {S : Storage σ} (hS : S.Lawful)
    {sha : Sha256} {f : Uploads σ} {labels : List Uploads.Label}
    (h : Lib.exec (Uploads.step S sha) (Uploads.new S) labels = some f) :
    (∀ object ∈ S.written f.shared, ∃ w ∈ f.members, w.Owns object.uploadId ∧
      w.request.key = object.key ∧
      .completeSent ∈ w.history ∧ ∃ source, .prepared source ∈ w.history ∧
      source.content = object.bytes ∧
        ∀ buffer, w.request.source = .bytes buffer →
        object.bytes = buffer.bytes) ∧
    (∀ w ∈ f.members, ∀ output, w.phase = .finished (.ok output) →
      ∃ source, .prepared source ∈ w.history ∧
        ∃ id, w.Owns id ∧
        ⟨id, w.request.key, source.content⟩ ∈ S.written f.shared) ∧
    ((S.written f.shared).map Written.uploadId).Nodup ∧
    (S.written f.shared).Pairwise fun object other =>
      ∀ w ∈ f.members, w.Owns object.uploadId → ¬ w.Owns other.uploadId := by
  have hkept := Kept.of_run hS h
  refine ⟨?_, ?_, List.pairwise_map.mpr (hkept.once.imp Ne.symm),
    hkept.once_each⟩
  · intro object hobject
    obtain ⟨w, hw, howned, hkey, hsent, source, hsource, hcontent⟩ :=
      hkept.written object hobject
    refine ⟨w, hw, howned, hkey, hsent, source, hsource, hcontent, ?_⟩
    intro buffer hbuffer
    obtain ⟨past, -, -, hbytes⟩ := (hkept.members w hw).1.lawful.of_mem hsource
    rw [← hcontent, hbytes buffer hbuffer]
    rfl
  · intro w hw output hphase
    have hphased := (hkept.members w hw).1.phase
    rw [hphase] at hphased
    cases hphased with
    | early e hresult => cases hresult
    | aborted id failure answer hresult => cases hresult
    | completed id output' hresult hcreated hreturned =>
        obtain ⟨⟨id', key, bytes⟩, hwritten, rfl⟩ :=
          hkept.returned w hw output' hreturned id hcreated
        obtain ⟨w₂, hw₂, howned, hkey, -, source, hsource, hcontent⟩ :=
          hkept.written _ hwritten
        obtain ⟨i, hi⟩ := List.getElem?_of_mem hw
        obtain rfl := hkept.eq_of_owns hi hw₂ hcreated howned
        refine ⟨source, hsource, id', howned, ?_⟩
        rw [hkey, hcontent]
        exact hwritten

/-! ### A service that is lawful, and two uploads to one key

The store keeps the bodies of each open upload, the latest first, and joins for
a completion the latest of each part that is listed.  It compares no ETags. -/

/-- An upload and the bodies that have arrived for its parts, latest first. -/
structure OpenUpload where
  uploadId : UploadId
  key : ObjectKey
  parts : List (Nat × Bytes)

/-- What the service stores. -/
structure Store where
  issued : List UploadId
  uploads : List OpenUpload
  written : List Written

namespace Store

variable {store : Store}

def create (store : Store) (key : ObjectKey) (id : UploadId) : Option Store :=
  if id ∈ store.issued then none
  else some { store with
    issued := id :: store.issued
    uploads := ⟨id, key, []⟩ :: store.uploads }

/-- An upload takes a body that is addressed to it. -/
def receive (r : UploadPartRequest) (upload : OpenUpload) : OpenUpload :=
  if upload.uploadId = r.uploadId ∧ upload.key = r.key then
    { upload with parts := (r.partNumber.get, r.body) :: upload.parts }
  else upload

def wrote (store : Store) (id : UploadId) : Bool :=
  store.written.any fun object => object.uploadId = id

def find (store : Store) (id : UploadId) (key : ObjectKey) :
    Option OpenUpload :=
  store.uploads.find? fun upload => upload.uploadId = id ∧ upload.key = key

/-- The latest body of each part that is listed. -/
def assemble (parts : List CompletedPart) (upload : OpenUpload) :
    Option (List Bytes) :=
  parts.mapM fun part => upload.parts.lookup part.number

def close (store : Store) (id : UploadId) : Store :=
  { store with uploads := store.uploads.filter fun upload => upload.uploadId ≠
    id }

/-- An upload is completed once, and is closed then. -/
def complete (store : Store) (r : CompleteMultipartUploadRequest) : Store :=
  if store.wrote r.uploadId then store
  else
    match (store.find r.uploadId r.key).bind (assemble r.completedParts) with
    | none => store
    | some bodies =>
        { store.close r.uploadId with written :=
          ⟨r.uploadId, r.key, bodies.flatten⟩ :: store.written }

def Holds (store : Store) (part : HeldPart) : Prop :=
  ∃ upload ∈ store.uploads,
    upload.uploadId = part.uploadId ∧ upload.key = part.key ∧
      (part.number, part.body) ∈ upload.parts

/-- The store, as a service. -/
def storage : Storage Store where
  start := ⟨[], [], []⟩
  create := create
  uploadPart store r := { store with uploads := store.uploads.map (receive r) }
  complete := complete
  abort store r := store.close r.uploadId
  confirms := wrote
  written := written
  issued store id := id ∈ store.issued
  holds := Holds

theorem create_eq {key : ObjectKey} {id : UploadId} {store' : Store}
    (h : store.create key id = some store') :
    id ∉ store.issued ∧
      store' = { store with
        issued := id :: store.issued
        uploads := ⟨id, key, []⟩ :: store.uploads } := by
  rw [create] at h
  split at h
  · cases h
  · next hfresh =>
      cases h
      exact ⟨hfresh, rfl⟩

theorem receive_parts {r : UploadPartRequest} {upload : OpenUpload}
    {part : HeldPart} (hid : (receive r upload).uploadId = part.uploadId)
    (hkey : (receive r upload).key = part.key)
    (h : (part.number, part.body) ∈ (receive r upload).parts) :
    (upload.uploadId = part.uploadId ∧ upload.key = part.key ∧
      (part.number, part.body) ∈ upload.parts) ∨
      part = r.part := by
  rw [receive] at hid hkey h
  split at h
  · next hto =>
      rw [if_pos hto] at hid hkey
      rcases List.mem_cons.mp h with heq | hold
      · obtain ⟨hnumber, hbody⟩ := Prod.mk.inj heq
        obtain ⟨id, key, number, body⟩ := part
        refine Or.inr ?_
        rw [UploadPartRequest.part, ← hto.1, ← hto.2]
        exact (HeldPart.mk.injEq ..).mpr ⟨hid.symm, hkey.symm, hnumber, hbody⟩
      · exact Or.inl ⟨hid, hkey, hold⟩
  · next hto =>
      rw [if_neg hto] at hid hkey
      exact Or.inl ⟨hid, hkey, h⟩

theorem close_keeps (store : Store) (id : UploadId) :
    storage.Keeps store (store.close id) := by
  refine ⟨fun hid => hid, ?_⟩
  rintro part ⟨upload, hupload, hpart⟩
  exact ⟨upload, List.mem_of_mem_filter hupload, hpart⟩

theorem complete_cases (store : Store) (r : CompleteMultipartUploadRequest) :
    store.complete r = store ∨ ∃ upload bodies, upload ∈ store.uploads ∧
    upload.uploadId = r.uploadId ∧
      upload.key = r.key ∧ assemble r.completedParts upload = some bodies ∧
      store.wrote r.uploadId = false ∧
        store.complete r =
          { store.close r.uploadId with written :=
  ⟨r.uploadId, r.key, bodies.flatten⟩ :: store.written } := by
  rw [complete]
  split
  · exact Or.inl rfl
  next hfirst =>
  cases hfound :
      (store.find r.uploadId r.key).bind (assemble r.completedParts) with
  | none => exact Or.inl rfl
  | some bodies =>
      obtain ⟨upload, hfind, hassembled⟩ := Option.bind_eq_some_iff.mp hfound
      rw [find] at hfind
      have hmatches := List.find?_some hfind
      obtain ⟨hid, hkey⟩ := of_decide_eq_true hmatches
      exact Or.inr ⟨upload, bodies, List.mem_of_find?_eq_some hfind, hid, hkey,
        hassembled,
        Bool.eq_false_iff.mpr hfirst, rfl⟩

theorem storage_lawful : storage.Lawful where
  start_holds := by
    rintro part ⟨upload, hupload, -⟩
    exact List.not_mem_nil hupload
  start_written := rfl
  create_fresh h := (create_eq h).1
  create_issues h := by
    obtain ⟨-, rfl⟩ := create_eq h
    exact List.mem_cons_self ..
  create_keeps h := by
    obtain ⟨-, rfl⟩ := create_eq h
    refine ⟨List.mem_cons_of_mem _, ?_⟩
    rintro part ⟨upload, hupload, hid, hkey, hpart⟩
    rcases List.mem_cons.mp hupload with rfl | hupload
    · exact absurd hpart List.not_mem_nil
    · exact ⟨upload, hupload, hid, hkey, hpart⟩
  create_written h := by
    obtain ⟨-, rfl⟩ := create_eq h
    rfl
  uploadPart_issued hid := hid
  uploadPart_holds := by
    rintro store r part ⟨upload, hupload, hid, hkey, hpart⟩
    obtain ⟨old, hold, rfl⟩ := List.mem_map.mp hupload
    rcases receive_parts hid hkey hpart with hpart | hnew
    · exact Or.inl ⟨old, hold, hpart⟩
    · exact Or.inr hnew
  uploadPart_written := rfl
  complete_keeps := by
    intro store r
    show storage.Keeps store (store.complete r)
    rcases complete_cases store r with heq |
      ⟨upload, bodies, -, -, -, -, -, heq⟩
    · rw [heq]
      exact ⟨fun hid => hid, fun hpart => hpart⟩
    · rw [heq]
      exact ⟨(close_keeps store r.uploadId).issued,
        (close_keeps store r.uploadId).holds⟩
  complete_writes := by
    intro store r
    show (store.complete r).written = store.written ∨
      storage.Writes store r (store.complete r)
    rcases complete_cases store r with heq |
      ⟨upload, bodies, hupload, hid, hkey, hassembled, hfirst, heq⟩
    · exact Or.inl (congrArg written heq)
    · rw [heq]
      refine Or.inr ⟨?_, bodies, ?_, rfl⟩
      · intro object hobject hsame
        exact List.any_eq_false.mp hfirst object hobject (decide_eq_true hsame)
      · refine (Lib.forall₂_of_mapM hassembled).imp ?_
        intro part body hbody
        obtain ⟨before, after, hsplit, -⟩ := List.lookup_eq_some_iff.mp hbody
        exact ⟨upload, hupload, hid, hkey,
          hsplit ▸ List.mem_append_right _ (List.mem_cons_self ..)⟩
  abort_keeps := close_keeps _ _
  abort_written := rfl
  confirms_written := by
    intro store id hconfirmed
    obtain ⟨object, hobject, heq⟩ := List.any_eq_true.mp hconfirmed
    exact ⟨object, hobject, of_decide_eq_true heq⟩

end Store

section OneKey

/-- The other upload: another byte, to the key of `oneByteRequest`. -/
def rivalRequest : ManagedMultipartUploadRequest :=
  { oneByteRequest with source := .bytes ⟨[98], by decide⟩ }

def rivalUploadId : UploadId :=
  ⟨"rival".toList, by decide, by decide, by decide⟩

def plainCompletion : CompleteMultipartUploadOutput :=
  ⟨none, none, none, none, none, {}, ⟨none, none⟩⟩

/-- A member sends its one part, which arrives twice, and its completion. -/
def untilCompletion (member : Nat) (id : UploadId) : List Uploads.Label :=
  [.act member (.work (.pollPrepare .pending)),
    .act member (.work .checkCancelled),
    .act member (.work (.createReturns (.ok id))),
      .act member (.work (.pollPart 1)),
    .act member (.work (.sendPart 1)), .act member (.arrive 0),
      .act member (.arrive 0),
    .act member (.work (.partResolves 1 (.response taggedResponse))),
    .act member (.work (.pollComplete .pending)),
      .act member (.work .pollCancelled),
    .act member (.work (.pollComplete .sends)),
      .act member (.work .pollCancelled)]

/-- The completion arrives, late and repeated, and is confirmed. -/
def completion (member : Nat) : List Uploads.Label :=
  [.act member (.arrive 1), .act member (.arrive 1),
    .act member (.work (.pollComplete (.returns (.ok plainCompletion))))]

/-- The first to send its completion is the last whose completion arrives. -/
def oneKeyRun : List Uploads.Label :=
  [.join oneByteRequest, .join rivalRequest] ++
    untilCompletion 0 oneByteUploadId ++
    untilCompletion 1 rivalUploadId ++ completion 1 ++ completion 0

def Phase.isCompleted : Phase → Bool
  | .finished (.ok _) => true
  | _ => false

theorem Phase.exists_of_isCompleted {phase : Phase}
    (h : phase.isCompleted = true) :
    ∃ output, phase = .finished (.ok output) := by
  cases phase with
  | finished result =>
      cases result with
      | ok output => exact ⟨output, rfl⟩
      | error failure => cases h
  | _ => cases h

/-- Both finish, and each object is the source of the upload that wrote it. -/
theorem uploads_never_mix_one_key :
    ∃ f, Lib.exec (Uploads.step Store.storage standardSha256)
      (Uploads.new Store.storage) oneKeyRun = some f ∧
      f.shared.written.map (fun object => (object.uploadId, object.bytes)) =
        [(oneByteUploadId, [97]), (rivalUploadId, [98])] ∧
      (∀ object ∈ f.shared.written, ∃ w ∈ f.members, w.Owns object.uploadId ∧
        w.request.key = object.key) ∧
      ∀ w ∈ f.members, ∃ source, .prepared source ∈ w.history ∧
        ∃ id, w.Owns id ∧
        ⟨id, w.request.key, source.content⟩ ∈ f.shared.written := by
  obtain ⟨f, hf, hcheck⟩ :=
    Lib.exec_of_check (Uploads.step Store.storage standardSha256)
    (Uploads.new Store.storage) oneKeyRun
    (fun f => f.members.all (fun w => w.phase.isCompleted) &&
      decide (f.shared.written.map
        (fun object => (object.uploadId, object.bytes)) =
        [(oneByteUploadId, [97]), (rivalUploadId, [98])]))
    (by decide +kernel)
  obtain ⟨hcompleted, hobjects⟩ := Bool.and_eq_true_iff.mp hcheck
  obtain ⟨hwritten, hfinished, -⟩ := uploads_never_mix Store.storage_lawful hf
  refine ⟨f, hf, of_decide_eq_true hobjects, ?_, ?_⟩
  · intro object hobject
    obtain ⟨w, hw, howned, hkey, -⟩ := hwritten object hobject
    exact ⟨w, hw, howned, hkey⟩
  · intro w hw
    obtain ⟨output, hphase⟩ :=
      Phase.exists_of_isCompleted (List.all_eq_true.mp hcompleted w hw)
    exact hfinished w hw output hphase

end OneKey

end S3Wire
