/-
# `S3Wire.Client.MultipartUpload.Cancellation` — what starts after the flag is set

Dropping the caller's future sets the cancellation flag.  From then on the task
is meant to start nothing: no further part, no completion; only what has begun
settles, and the upload is aborted.  The worker does not keep to this at four
points.

* A creation that returns with the flag already set still schedules parts, and
  settling them polls them for the first time.
* The `select!` of `upload_parts` may take a part result with the flag set, and the
  loop then schedules the next part before it looks at the flag again.
* A part that was scheduled and not yet polled when the flag is set is still begun,
  by that `select!` or by `quiesce_part_requests`.
* The `select!` around the completion polls the completion first: a completion that
  was being prepared when the flag is set is still sent.

`Worker.timely` says of a step that it is at none of these points, and the
result is about runs all of whose steps are timely.
-/
import S3Wire.Client.MultipartUpload.Cleanup

namespace S3Wire

/-! ## Starting -/

/-- Events that start something: the upload is created, a part is scheduled or
begins, the completion goes out. -/
def Event.isStart : Event → Bool
  | .createIssued _ | .partPushed _ | .partBegun _ | .completeSent => true
  | _ => false

/-- Everything scheduled has begun, and no completion is about to go out. -/
def Phase.allBegun : Phase → Bool
  | .uploading job => job.pending.all fun f => f.stage != .unpolled
  | .quiescing job _ => job.pending.all fun f => f.stage != .unpolled
  | .completing _ stage => stage != .preparing
  | _ => true

/-- The loop of `upload_parts` has parts left to schedule. -/
def Phase.hasUnscheduled : Phase → Bool
  | .uploading job => job.nextPart ≤ job.partCount
  | _ => false

/-- The reply is one that `upload_one_part` returns as a part. -/
def PartReply.succeeds (number : Nat) (reply : PartReply) : Bool :=
  (partResult number reply).toBool

namespace Worker

/-- The step does not race with the cancellation: the flag is set when
everything scheduled has begun; it is not set when the creation succeeds; and
once it is set, no successful part is taken while others are left to
schedule. -/
def timely (w : Worker) : Label → Bool
  | .cancel => w.phase.allBegun
  | .createReturns (.ok _) => !w.cancelled
  | .partResolves number reply =>
      !(w.cancelled && reply.succeeds number && w.phase.hasUnscheduled)
  | _ => true

end Worker

/-! ## What a step adds -/

section Calm

variable {Z : Prop} {w w₁ w' : Worker} {job : Job}

/-- The later worker is the earlier one with more events, none of which sets the
flag, and under `Z` none of which starts anything. -/
def Adds (Z : Prop) (w w' : Worker) : Prop :=
  w'.cancelled = w.cancelled ∧
    ∃ new, w'.history = new ++ w.history ∧ ∀ e ∈ new, e ≠ .cancelled ∧
      (Z → e.isStart = false)

/-- Such a worker that, under `Z`, has begun everything it has scheduled. -/
def Calm (Z : Prop) (w w' : Worker) : Prop :=
  Adds Z w w' ∧ (Z → w'.phase.allBegun = true)

theorem Adds.refl (w : Worker) : Adds Z w w := ⟨rfl, [], rfl, by simp⟩

theorem Adds.log (h : Adds Z w w₁) {e : Event} (he : e ≠ .cancelled)
    (hstart : Z → e.isStart = false) : Adds Z w (w₁.log e) := by
  obtain ⟨hflag, new, hnew, hall⟩ := h
  exact ⟨hflag, e :: new, by simp [hnew],
    List.forall_mem_cons.mpr ⟨⟨he, hstart⟩, hall⟩⟩

theorem Adds.goto (h : Adds Z w w₁) {phase : Phase}
    (hphase : Z → phase.allBegun = true) :
    Calm Z w (w₁.goto phase) := ⟨h, hphase⟩

theorem Adds.failWithAbort (h : Adds Z w w₁) (id : UploadId)
    (failure : ManagedUploadFailure) :
    Calm Z w (w₁.failWithAbort id failure) :=
  (h.log (by simp) fun _ => rfl).goto fun _ => rfl

theorem Adds.settle (h : Adds Z w w₁) {primary : S3Error}
    (hjob : Z → (Phase.quiescing job primary).allBegun = true) :
    Calm Z w (w₁.settle job primary) := by
  unfold Worker.settle
  split
  · exact h.failWithAbort _ _
  · exact h.goto hjob

theorem Adds.startCompletion (h : Adds Z w w₁) (id : UploadId)
    (upload : MultipartUpload) :
    Calm Z w (w₁.startCompletion id upload) := by
  have hup := h.log (e := .partsUploaded upload) (by simp) fun _ => rfl
  unfold Worker.startCompletion
  split
  · exact (hup.log (by simp) fun _ => rfl).failWithAbort _ _
  · exact (hup.log (by simp) fun _ => rfl).goto fun _ => rfl

theorem refill_done {concurrency partCount nextPart : Nat}
    (hdone : partCount < nextPart) :
    ∀ (fuel : Nat) (pending : List InFlight),
      refill concurrency partCount fuel nextPart pending = (nextPart, pending)
  | 0, _ => rfl
  | _ + 1, _ => by
      rw [refill, if_neg fun h => absurd h.2 (by omega)]

theorem Job.refilled_done {concurrency : Nat}
    (hdone : job.partCount < job.nextPart) :
    job.refilled concurrency = job ∧ job.pushedBy concurrency = [] := by
  have hsame : job.refilled concurrency = job := by
    simp only [Job.refilled, refill_done hdone]
  refine ⟨hsame, ?_⟩
  simp [Job.pushedBy, hsame]

theorem Adds.schedule (h : Adds Z w w₁)
    (hdone : Z → job.partCount < job.nextPart)
    (hjob : Z → (Phase.uploading job).allBegun = true) :
    Calm Z w (w₁.schedule job) := by
  have hadds : Adds Z w { w₁ with history :=
      (job.pushedBy w₁.request.options.concurrency).map Event.partPushed ++
          w₁.history } := by
    obtain ⟨hflag, new, hnew, hall⟩ := h
    refine ⟨hflag,
      (job.pushedBy w₁.request.options.concurrency).map Event.partPushed ++ new,
      by simp [hnew], fun e he => ?_⟩
    rcases List.mem_append.mp he with he | he
    · obtain ⟨i, hi, rfl⟩ := List.mem_map.mp he
      refine ⟨by simp, fun hz => ?_⟩
      rw [(Job.refilled_done (hdone hz)).2] at hi
      cases hi
    · exact hall e he
  unfold Worker.schedule
  simp only
  split
  · exact hadds.startCompletion _ _
  · refine hadds.goto fun hz => ?_
    rw [(Job.refilled_done (hdone hz)).1]
    exact hjob hz

theorem Adds.takeResult (h : Adds Z w w₁)
    {result : Except S3Error CompletedPart}
    (hdone : Z → result.toBool = true → job.partCount < job.nextPart)
    (hjob : Z → (Phase.uploading job).allBegun = true) :
    Calm Z w (w₁.takeResult job result) := by
  unfold Worker.takeResult
  cases result with
  | error primary => exact h.settle hjob
  | ok part =>
      simp only
      split
      · exact (h.log (by simp) fun _ => rfl).settle hjob
      · exact h.schedule (fun hz => hdone hz rfl) hjob

theorem Adds.countParts (h : Adds Z w w₁) (source : PreparedMultipartSource) :
    Calm Z w (w₁.countParts source) := by
  have hp := h.log (e := .prepared source) (by simp) fun _ => rfl
  unfold Worker.countParts
  simp only
  split
  · exact hp.goto fun _ => rfl
  · exact hp.goto fun _ => rfl

/-- No part in flight is unpolled, whatever becomes of the part that moves. -/
theorem allBegun_setStage {number : Nat} {stage : PartStage}
    (hstage : stage ≠ .unpolled)
    (hjob : (job.pending.all fun f => f.stage != .unpolled) = true) :
    ((job.setStage number stage).pending.all fun f => f.stage != .unpolled) =
      true := by
  rw [List.all_eq_true] at hjob ⊢
  intro f hf
  rcases Job.mem_setStage.mp hf with ⟨hf, -⟩ | ⟨-, hs, -⟩
  · exact hjob f hf
  · simpa [hs] using hstage

theorem allBegun_remove {number : Nat}
    (hjob : (job.pending.all fun f => f.stage != .unpolled) = true) :
    ((job.remove number).pending.all fun f => f.stage != .unpolled) = true := by
  rw [List.all_eq_true] at hjob ⊢
  exact fun f hf => hjob f (Job.mem_remove.mp hf).1

theorem not_allBegun_of_unpolled {number : Nat} {f : InFlight}
    (hf : job.find number = some f) (hs : f.stage = .unpolled)
    (hjob : (job.pending.all fun f => f.stage != .unpolled) = true) :
    False := by
  have := List.all_eq_true.mp hjob f (Job.find_some hf).1
  simp [hs] at this

theorem allBegun_of_polling {k : Job → Phase} (hk : Polling k) (job : Job) :
    (k job).allBegun = job.pending.all fun f => f.stage != .unpolled := by
  cases hk with
  | uploading => rfl
  | quiescing primary => rfl

end Calm

/-! ## Steps and runs -/

section Runs

variable {q : ManagedMultipartUploadRequest} {sha : Sha256} {w w' : Worker}

/-- **One step starts something only where it races with the cancellation.** -/
theorem calm_step {label : Label} (h : w.step sha label = some w')
    (hne : label ≠ .cancel) :
    Calm (w.cancelled = true ∧ w.timely label = true ∧ w.phase.allBegun = true)
      w w' := by
  have hrefl :=
    Adds.refl (Z := w.cancelled = true ∧ w.timely label = true ∧
      w.phase.allBegun = true) w
  cases Worker.turn_of_step h with
  | cancels => exact absurd rfl hne
  | expires => exact ⟨⟨rfl, [], rfl, by simp⟩, fun hz => hz.2.2⟩
  | counts => exact hrefl.countParts _
  | failsToPrepare => exact hrefl.goto fun _ => rfl
  | waitsToPrepare => exact ⟨hrefl, fun hz => hz.2.2⟩
  | refuses => exact hrefl.goto fun _ => rfl
  | creates hphase hflag =>
      -- the flag is looked at right before
      refine (hrefl.log (by simp) fun hz => ?_).goto fun _ => rfl
      rw [hflag] at hz
      exact Bool.noConfusion hz.1
  | created =>
      -- never with the flag set
      refine (hrefl.log (by simp) fun _ => rfl).schedule (fun hz => ?_) fun _ =>
        rfl
      obtain ⟨hflag, htimely, -⟩ := hz
      simp [Worker.timely, hflag] at htimely
  | failsToCreate => exact (hrefl.log (by simp) fun _ => rfl).goto fun _ => rfl
  | begins hk hphase hf hstage =>
      -- everything in flight has begun
      rw [hphase, allBegun_of_polling hk] at hrefl ⊢
      refine (hrefl.log (by simp) fun hz =>
        (not_allBegun_of_unpolled hf hstage hz.2.2).elim).goto
        fun hz => ?_
      rw [allBegun_of_polling hk]
      exact allBegun_setStage (by simp) hz.2.2
  | @panics job number f k hk hphase hf hstage =>
      rw [hphase, allBegun_of_polling hk] at hrefl ⊢
      have hbegun := hrefl.log (e := .partBegun number) (by simp) fun hz =>
        (not_allBegun_of_unpolled hf hstage hz.2.2).elim
      exact (hbegun.log (by simp) fun _ => rfl).goto fun _ => rfl
  | sends hk hphase =>
      rw [hphase, allBegun_of_polling hk] at hrefl ⊢
      refine (hrefl.log (by simp) fun _ => rfl).goto fun hz => ?_
      rw [allBegun_of_polling hk]
      exact allBegun_setStage (by simp) hz.2.2
  | @takes job number reply f hphase =>
      -- a success is taken only with every part scheduled
      rw [hphase] at hrefl ⊢
      refine (hrefl.log (by simp) fun _ => rfl).takeResult (fun hz hok => ?_)
        fun hz => allBegun_remove hz.2.2
      obtain ⟨hflag, htimely, -⟩ := hz
      have hdone : job.partCount < job.nextPart := by
        simpa [Worker.timely, hflag, hphase, PartReply.succeeds, hok,
          Phase.hasUnscheduled]
          using htimely
      exact hdone
  | settles hphase =>
      rw [hphase] at hrefl ⊢
      exact (hrefl.log (by simp) fun _ => rfl).settle fun hz =>
        allBegun_remove hz.2.2
  | losesScheduler hphase =>
      rw [hphase] at hrefl ⊢
      exact (hrefl.log (by simp) fun _ => rfl).settle fun hz => hz.2.2
  | observesCancel hphase =>
      rw [hphase] at hrefl ⊢
      exact (hrefl.log (by simp) fun _ => rfl).settle fun hz => hz.2.2
  | observesDeadline hphase =>
      rw [hphase] at hrefl ⊢
      exact (hrefl.log (by simp) fun _ => rfl).settle fun hz => hz.2.2
  | timesOut => exact (hrefl.log (by simp) fun _ => rfl).failWithAbort _ _
  | waitsToComplete => exact hrefl.goto fun _ => rfl
  | sendsCompletion hphase =>
      -- a completion that is being prepared was to be sent
      rw [hphase] at hrefl ⊢
      exact (hrefl.log (by simp) fun hz => Bool.noConfusion hz.2.2).goto
        fun _ => rfl
  | completes => exact (hrefl.log (by simp) fun _ => rfl).goto fun _ => rfl
  | failsToComplete =>
      exact (hrefl.log (by simp) fun _ => rfl).failWithAbort _ _
  | givesUp => exact (hrefl.log (by simp) fun _ => rfl).failWithAbort _ _
  | goesOn hphase hflag =>
      -- with the flag set the completion is given up
      refine hrefl.goto fun hz => ?_
      rw [hflag] at hz
      exact Bool.noConfusion hz.1
  | aborts => exact (hrefl.log (by simp) fun _ => rfl).goto fun _ => rfl

/-- Nothing starts once the flag is set. -/
def Quiet (e : Event) (past : List Event) : Prop :=
  e.isStart = true → .cancelled ∉ past

/-- The flag and the history agree, nothing has started since it was set, and
with the flag set everything scheduled has begun. -/
structure QuietInv (w : Worker) : Prop where
  flag : .cancelled ∈ w.history → w.cancelled = true
  quiet : Lib.Justified Quiet w.history
  begun : w.cancelled = true → w.phase.allBegun = true

/-- Events that neither set the flag nor, with the flag set, start anything keep
a quiet history quiet. -/
theorem quiet_append {h : List Event} (hq : Lib.Justified Quiet h) :
    ∀ {new : List Event},
    (∀ e ∈ new, e ≠ .cancelled) →
    (.cancelled ∈ h → ∀ e ∈ new, e.isStart = false) →
      Lib.Justified Quiet (new ++ h)
  | [], _, _ => hq
  | e :: new, hne, hstart => by
      refine ⟨fun he hc => ?_,
        quiet_append hq (fun x hx => hne x (by simp [hx]))
        fun hc x hx => hstart hc x (by simp [hx])⟩
      rcases List.mem_append.mp hc with hc | hc
      · exact hne _ (List.mem_cons_of_mem _ hc) rfl
      · exact Bool.false_ne_true ((hstart hc e (by simp)).symm.trans he)

theorem quiet_step {label : Label} (h : w.step sha label = some w')
    (htimely : w.timely label = true) (hw : QuietInv w) : QuietInv w' := by
  by_cases hl : label = .cancel
  · subst hl
    cases Worker.turn_of_step h with
    | cancels =>
        exact ⟨fun _ => rfl, ⟨(fun hs => nomatch hs), hw.quiet⟩,
          fun _ => htimely⟩
  · obtain ⟨⟨hflag, new, hnew, hall⟩, hbegun⟩ := calm_step h hl
    refine ⟨fun hc => ?_, ?_, fun hc => ?_⟩
    · rw [hflag]
      refine hw.flag ?_
      rw [hnew] at hc
      exact (List.mem_append.mp hc).resolve_left fun hc => (hall _ hc).1 rfl
    · rw [hnew]
      refine quiet_append hw.quiet (fun e he => (hall e he).1) fun hc e he =>
        (hall e he).2 ?_
      have hset := hw.flag hc
      exact ⟨hset, htimely, hw.begun hset⟩
    · rw [hflag] at hc
      exact hbegun ⟨hc, htimely, hw.begun hc⟩

theorem quiet_init : QuietInv (Worker.init q) :=
  ⟨(fun hc => nomatch hc), trivial, fun hc => nomatch hc⟩

theorem quiet_run {labels : List Label}
    (hrun : Lib.exec (Worker.step sha) (Worker.init q) labels = some w)
    (htimely : Lib.Along (Worker.step sha) (fun w l => w.timely l = true)
      (Worker.init q) labels) :
    Inv q w ∧ QuietInv w :=
  Lib.exec_invariant_of (I := fun w => Inv q w ∧ QuietInv w)
    (fun h hc hi => ⟨inv_step h hi.1, quiet_step h hc hi.2⟩) hrun htimely
    ⟨inv_init, quiet_init⟩

theorem begun_before {h later past : List Event} {e : Event} {i : Nat}
    (hlaw : Lib.Justified (Lawful q) h)
    (hsplit : h = later ++ .cancelled :: past) (he : e ∈ later)
    (hquiet : ∀ x ∈ later, x.isStart = false)
    (hneeds : ∀ past', Lawful q e past' → .partBegun i ∈ past') :
    .partBegun i ∈ past := by
  have hmem : e ∈ h := by simp [hsplit, he]
  obtain ⟨past', hsuffix, hl⟩ := hlaw.of_mem hmem
  have hbegun := hsuffix.subset (hneeds past' hl)
  rw [hsplit] at hbegun
  rcases List.mem_append.mp hbegun with hb | hb
  · exact absurd (hquiet _ hb) (by simp [Event.isStart])
  · simpa using hb

/-- **A run that does not race with the cancellation starts nothing after it.**
If every step of the run is timely, then after the flag is set no upload is
created, no part is scheduled or begins and no completion is sent; the parts
that are still sent or resolve had begun before. -/
theorem multipartUpload_quiet_after_cancel {labels : List Label}
    (hrun : Lib.exec (Worker.step sha) (Worker.init q) labels = some w)
    (htimely : Lib.Along (Worker.step sha) (fun w l => w.timely l = true)
      (Worker.init q) labels) :
    ∀ later past, w.history = later ++ .cancelled :: past →
      (∀ r, .createIssued r ∉ later) ∧ (∀ i, .partPushed i ∉ later) ∧
      (∀ i, .partBegun i ∉ later) ∧ .completeSent ∉ later ∧
      (∀ r, .partSent r ∈ later → .partBegun r.partNumber.get ∈ past) ∧
      ∀ i reply, .partResolved i reply ∈ later → .partBegun i ∈ past := by
  obtain ⟨⟨-, hlaw, -⟩, -, hquiet, -⟩ := quiet_run hrun htimely
  intro later past hsplit
  have hstart : ∀ e ∈ later, e.isStart = false := by
    intro e he
    rw [Bool.eq_false_iff]
    rw [hsplit] at hquiet
    exact Lib.Justified.not_after (p := fun e => e = .cancelled)
      (q := fun e => e.isStart = true)
      (fun hR hs x hx hp => hR hs (hp ▸ hx)) hquiet rfl e he
  refine ⟨fun r hr => ?_, fun i hi => ?_, fun i hi => ?_, fun hs => ?_,
    fun r hr => ?_,
    fun i reply hr => ?_⟩
  · exact Bool.false_ne_true (hstart _ hr).symm
  · exact Bool.false_ne_true (hstart _ hi).symm
  · exact Bool.false_ne_true (hstart _ hi).symm
  · exact Bool.false_ne_true (hstart _ hs).symm
  · exact begun_before hlaw hsplit hr hstart fun past' hl => hl.2.1
  · exact begun_before hlaw hsplit hr hstart fun past' hl => hl.2.1

end Runs

/-! ## Runs -/

section OneByte

def Event.isCancelled : Event → Bool
  | .cancelled => true
  | _ => false

def Event.isCompleteSent : Event → Bool
  | .completeSent => true
  | _ => false

/-- What has happened since the flag was set. -/
def sinceCancel (h : List Event) : List Event :=
  h.takeWhile fun e => !e.isCancelled

theorem exists_split_at_cancel :
    ∀ {h : List Event}, h.any Event.isCancelled = true →
    ∃ later past, h = later ++ .cancelled :: past ∧ sinceCancel h = later
  | e :: past, hany => by
      cases hc : e.isCancelled with
      | true =>
          obtain rfl : e = .cancelled := by
            cases e <;> first | rfl | cases hc
          exact ⟨[], past, rfl, rfl⟩
      | false =>
          rw [List.any_cons, hc, Bool.false_or] at hany
          obtain ⟨later, past', rfl, hsince⟩ := exists_split_at_cancel hany
          refine ⟨e :: later, past', rfl, ?_⟩
          rw [sinceCancel, List.takeWhile_cons_of_pos (by simp [hc])]
          exact congrArg (e :: ·) hsince

/-- The caller gives up once the part is on its way: nothing starts
afterwards. -/
theorem multipartUpload_quiet_one_byte :
    ∃ w, Lib.exec (Worker.step standardSha256)
      (Worker.init oneByteRequest) oneByteAbort = some w ∧
      Lib.Along (Worker.step standardSha256) (fun w l => w.timely l = true)
        (Worker.init oneByteRequest) oneByteAbort ∧
      ∃ later past, w.history = later ++ .cancelled :: past ∧
      ∀ i, .partBegun i ∉ later := by
  obtain ⟨w, hw, hcheck⟩ := Lib.exec_of_check (Worker.step standardSha256)
    (Worker.init oneByteRequest) oneByteAbort
      (fun w => w.history.any Event.isCancelled)
    (by decide +kernel)
  have htimely :
      Lib.Along (Worker.step standardSha256) (fun w l => w.timely l = true)
      (Worker.init oneByteRequest) oneByteAbort := by decide +kernel
  obtain ⟨later, past, hsplit, -⟩ := exists_split_at_cancel hcheck
  exact ⟨w, hw, htimely, later, past, hsplit,
    (multipartUpload_quiet_after_cancel hw htimely later past hsplit).2.2.1⟩

/-- The caller gives up while the upload is being created. -/
def cancelWhileCreating : List Label :=
  [.pollPrepare .pending, .checkCancelled, .cancel,
    .createReturns (.ok oneByteUploadId),
    .selectCancelled, .pollPart 1, .sendPart 1]

/-- The caller gives up while the completion is being prepared. -/
def cancelWhilePreparing : List Label :=
  oneByteParts ++
    [.pollComplete .pending, .pollCancelled, .cancel, .pollComplete .sends]

/-- Both kinds of work start after the flag is set: a part that was never polled
is begun while settling, and the completion is sent. -/
theorem multipartUpload_starts_after_cancel :
    (∃ w later past,
      Lib.exec (Worker.step standardSha256)
        (Worker.init oneByteRequest) cancelWhileCreating = some w ∧
        w.history = later ++ .cancelled :: past ∧ .partBegun 1 ∈ later ∧
        .partBegun 1 ∉ past) ∧
    ∃ w later past,
      Lib.exec (Worker.step standardSha256)
        (Worker.init oneByteRequest) cancelWhilePreparing = some w ∧
        w.history = later ++ .cancelled :: past ∧ .completeSent ∈ later := by
  constructor
  · obtain ⟨w, hw, hcheck⟩ := Lib.exec_of_check (Worker.step standardSha256)
      (Worker.init oneByteRequest) cancelWhileCreating
      (fun w => w.history.any Event.isCancelled && (sinceCancel w.history).any
        (isBegun 1))
      (by decide +kernel)
    simp only [Bool.and_eq_true] at hcheck
    obtain ⟨later, past, hsplit, rfl⟩ := exists_split_at_cancel hcheck.1
    obtain ⟨e, he, hb⟩ := List.any_eq_true.mp hcheck.2
    rw [isBegun_iff.mp hb] at he
    refine ⟨w, _, past, hw, hsplit, he, fun hpast => ?_⟩
    -- a part begins once
    have hcount := count_begun_le_one (inv_run hw).lawful 1
    rw [hsplit, List.countP_append, List.countP_cons] at hcount
    have h1 := List.countP_pos_iff.mpr ⟨_, he, isBegun_iff.mpr rfl⟩
    have h2 := List.countP_pos_iff.mpr ⟨_, hpast, isBegun_iff.mpr rfl⟩
    omega
  · obtain ⟨w, hw, hcheck⟩ := Lib.exec_of_check (Worker.step standardSha256)
      (Worker.init oneByteRequest) cancelWhilePreparing
      (fun w => w.history.any Event.isCancelled &&
        (sinceCancel w.history).any Event.isCompleteSent)
      (by decide +kernel)
    simp only [Bool.and_eq_true] at hcheck
    obtain ⟨later, past, hsplit, rfl⟩ := exists_split_at_cancel hcheck.1
    obtain ⟨e, he, hs⟩ := List.any_eq_true.mp hcheck.2
    obtain rfl : e = .completeSent := by
      cases e <;> first | rfl | cases hs
    exact ⟨w, _, past, hw, hsplit, he⟩

end OneByte

end S3Wire
