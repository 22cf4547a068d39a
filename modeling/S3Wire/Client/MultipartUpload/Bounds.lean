/-
# `S3Wire.Client.MultipartUpload.Bounds` — how much is in flight, and for how long

The resources of `upload_parts`, over every run of the worker: the in-flight set
never outgrows the concurrency, and with it the bodies that its futures hold
stay under `MultipartOptions::maximum_buffered_bytes`; the counter of the loop
is one more than the number of parts that were pushed; and nothing is pushed
once something has failed.

The bound on the set and the last clause are kept step by step (`Capped`).  The
rest is counting: by the invariant of the worker the parts that were pushed are
the parts that have resolved and those in flight (`JobInv.count_resolved`), so a
loop in which nothing fails runs until every part has resolved, and no longer.
-/
import S3Wire.Client.MultipartUpload.Parts

namespace S3Wire

/-! ## What is held -/

/-- `MultipartOptions::maximum_buffered_bytes`. -/
def MultipartOptions.maximumBufferedBytes (options : MultipartOptions) : Nat :=
  options.partSize * options.concurrency

theorem MultipartOptions.maximumBufferedBytes_lt (options : MultipartOptions) :
    options.maximumBufferedBytes < 2 ^ 64 := by
  have hmul := Nat.mul_le_mul options.partSize_le options.concurrency_le
  have hmax : maxPartSize * maxConcurrency < 2 ^ 64 := by decide
  exact Nat.lt_of_le_of_lt hmul hmax

/-- The in-flight set of a phase. -/
def Phase.inFlight : Phase → List InFlight
  | .uploading job => job.pending
  | .quiescing job _ => job.pending
  | _ => []

/-- The body that a future holds: none before its first poll, the part that it
has read afterwards. -/
def Job.bodyLength (job : Job) (f : InFlight) : Nat :=
  if f.stage = .unpolled then 0
  else
    match job.context.source.readPart job.context.partSize f.number with
    | .ok body => body.length
    | .error _ => 0

/-- The bytes of the parts that are in flight. -/
def Job.heldBytes (job : Job) : Nat := (job.pending.map job.bodyLength).sum

/-- The part that an event schedules. -/
def pushedNumber : Event → Option Nat
  | .partPushed number => some number
  | _ => none

/-- The part that an event ends. -/
def resolvedNumber : Event → Option Nat
  | .partResolved number _ => some number
  | _ => none

/-- How many parts were pushed. -/
def pushedCount (history : List Event) : Nat :=
  (history.filterMap pushedNumber).length

/-- How many parts have resolved. -/
def resolvedCount (history : List Event) : Nat :=
  (history.filterMap resolvedNumber).length

/-! ## The loop fills up to the concurrency -/

/-- After any number of turns of the inner `while`, not only after the last. -/
theorem refill_le (concurrency partCount : Nat) :
    ∀ (turns nextPart : Nat) (pending : List InFlight),
    pending.length ≤ concurrency → nextPart ≤ partCount + 1 →
      (refill concurrency partCount turns nextPart pending).2.length ≤
        concurrency ∧
        (refill concurrency partCount turns nextPart pending).1 ≤ partCount + 1
  | 0, _, _, hpending, hnext => ⟨hpending, hnext⟩
  | turns + 1, nextPart, pending, hpending, hnext => by
      rw [refill]
      by_cases hguard : pending.length < concurrency ∧ nextPart ≤ partCount
      · rw [if_pos hguard]
        refine refill_le concurrency partCount turns (nextPart + 1) _ ?_ ?_
        · rw [List.length_append, List.length_singleton]
          exact hguard.1
        · exact Nat.succ_le_succ hguard.2
      · rw [if_neg hguard]
        exact ⟨hpending, hnext⟩

theorem Job.length_refilled {job : Job} {concurrency : Nat}
    (hpending : job.pending.length ≤ concurrency)
    (hnext : job.nextPart ≤ job.partCount + 1) :
    (job.refilled concurrency).pending.length ≤ concurrency :=
  (refill_le concurrency job.partCount concurrency job.nextPart job.pending
    hpending hnext).1

/-! ## What every step keeps -/

/-- A part is pushed only while nothing has failed. -/
def Unfailed : Event → List Event → Prop
  | .partPushed _, past => originalFailure past = none
  | _, _ => True

/-- The bound on the parts in flight, with what keeps it. -/
structure Capped (q : ManagedMultipartUploadRequest) (w : Worker) : Prop where
  inFlight : w.phase.inFlight.length ≤ q.options.concurrency
  unfailed : Lib.Justified Unfailed w.history

section Pieces

variable {q : ManagedMultipartUploadRequest} {w w' : Worker} {job : Job}

theorem capped_failWithAbort {id : UploadId} {failure : ManagedUploadFailure}
    (h : Lib.Justified Unfailed w.history) :
    Capped q (w.failWithAbort id failure) :=
  ⟨Nat.zero_le _, trivial, h⟩

theorem capped_settle {primary : S3Error}
    (hpending : job.pending.length ≤ q.options.concurrency)
    (h : Lib.Justified Unfailed w.history) :
    Capped q (w.settle job primary) := by
  rw [Worker.settle]
  split
  · exact capped_failWithAbort h
  · exact ⟨hpending, h⟩

theorem capped_startCompletion {id : UploadId} {upload : MultipartUpload}
    (h : Lib.Justified Unfailed w.history) :
    Capped q (w.startCompletion id upload) := by
  rw [Worker.startCompletion]
  split
  · exact capped_failWithAbort ⟨trivial, trivial, h⟩
  · exact ⟨Nat.zero_le _, trivial, trivial, h⟩

theorem unfailed_pushes {history : List Event}
    (hnone : originalFailure history = none)
    (h : Lib.Justified Unfailed history) (numbers : List Nat) :
    originalFailure (numbers.map Event.partPushed ++ history) = none ∧
      Lib.Justified Unfailed (numbers.map Event.partPushed ++ history) := by
  induction numbers with
  | nil => exact ⟨hnone, h⟩
  | cons number numbers ih =>
      obtain ⟨hnone', h'⟩ := ih
      exact ⟨(originalFailure_cons_none rfl).trans hnone', hnone', h'⟩

theorem capped_schedule (hq : w.request = q)
    (hpending : job.pending.length ≤ q.options.concurrency)
    (hnext : job.nextPart ≤ job.partCount + 1)
    (hnone : originalFailure w.history = none)
    (h : Lib.Justified Unfailed w.history) : Capped q (w.schedule job) := by
  subst hq
  obtain ⟨-, h'⟩ :=
    unfailed_pushes hnone h (job.pushedBy w.request.options.concurrency)
  rw [Worker.schedule]
  split
  · exact capped_startCompletion h'
  · exact ⟨Job.length_refilled hpending hnext, h'⟩

theorem capped_takeResult {result : Except S3Error CompletedPart}
    (hq : w.request = q) (hpending : job.pending.length ≤ q.options.concurrency)
    (hnext : job.nextPart ≤ job.partCount + 1)
    (hnone : ∀ part, result = .ok part → originalFailure w.history = none)
    (h : Lib.Justified Unfailed w.history) :
    Capped q (w.takeResult job result) := by
  cases result with
  | error primary => exact capped_settle hpending h
  | ok part =>
      rw [Worker.takeResult]
      split
      · exact capped_settle hpending ⟨trivial, h⟩
      · next upload _ =>
          exact @capped_schedule _ _
            { job with upload := upload } hq hpending hnext (hnone part rfl) h

theorem length_setStage (job : Job) (number : Nat) (stage : PartStage) :
    (job.setStage number stage).pending.length = job.pending.length :=
  List.length_map _

theorem length_remove (job : Job) (number : Nat) :
    (job.remove number).pending.length ≤ job.pending.length :=
  List.length_filter_le _ _

theorem capped_countParts {source : PreparedMultipartSource}
    (h : Lib.Justified Unfailed w.history) :
    Capped q (w.countParts source) := by
  rw [Worker.countParts]
  split
  · exact ⟨Nat.zero_le _, trivial, h⟩
  · exact ⟨Nat.zero_le _, trivial, h⟩

theorem inFlight_of_polling {k : Job → Phase} (hk : Polling k) (job : Job) :
    (k job).inFlight = job.pending := by
  cases hk with
  | uploading => rfl
  | quiescing primary => rfl

/-- One step keeps the bound, in a state that meets the invariant of the
worker. -/
theorem capped_step {sha : Sha256} {label : Label}
    (h : w.step sha label = some w') (hi : Inv q w) (hc : Capped q w) :
    Capped q w' := by
  obtain ⟨hq, -, hp⟩ := hi
  have hunfailed := hc.unfailed
  have hcap := hc.inFlight
  cases Worker.turn_of_step h with
  | cancels => exact ⟨hcap, trivial, hunfailed⟩
  | expires => exact ⟨hcap, hunfailed⟩
  | counts => exact capped_countParts hunfailed
  | failsToPrepare => exact ⟨Nat.zero_le _, hunfailed⟩
  | waitsToPrepare => exact hc
  | refuses => exact ⟨Nat.zero_le _, hunfailed⟩
  | creates => exact ⟨Nat.zero_le _, trivial, hunfailed⟩
  | @created source n id hphase =>
      rw [hphase] at hp
      obtain ⟨-, -, -, hall⟩ := hp
      refine capped_schedule hq (Nat.zero_le _)
        (Nat.succ_le_succ (Nat.zero_le n)) ?_ ⟨trivial, hunfailed⟩
      refine (originalFailure_cons_none rfl).trans (originalFailure_none ?_)
      intro e he
      rcases hall e he with rfl | rfl | ⟨r, rfl⟩
      · rfl
      · rfl
      · rfl
  | failsToCreate => exact ⟨Nat.zero_le _, trivial, hunfailed⟩
  | @begins job number f k hk hphase =>
      rw [hphase, inFlight_of_polling hk] at hcap
      refine ⟨?_, trivial, hunfailed⟩
      rw [Worker.goto_phase, inFlight_of_polling hk, length_setStage]
      exact hcap
  | panics => exact ⟨Nat.zero_le _, trivial, trivial, hunfailed⟩
  | @sends job number f r k hk hphase =>
      rw [hphase, inFlight_of_polling hk] at hcap
      refine ⟨?_, trivial, hunfailed⟩
      rw [Worker.goto_phase, inFlight_of_polling hk, length_setStage]
      exact hcap
  | @takes job number reply f hphase =>
      rw [hphase] at hp hcap
      obtain ⟨hj, hr, -⟩ := hp
      refine capped_takeResult hq
        ((length_remove job number).trans hcap) hj.next_le ?_
          ⟨trivial, hunfailed⟩
      intro part hpart
      rw [Worker.log_history, originalFailure_cons_first hr.noFailure,
        failureOf, hpart]
  | @settles job primary number reply f hphase =>
      rw [hphase] at hcap
      exact capped_settle ((length_remove job number).trans hcap)
        ⟨trivial, hunfailed⟩
  | losesScheduler hphase =>
      rw [hphase] at hcap
      exact capped_settle hcap ⟨trivial, hunfailed⟩
  | observesCancel hphase =>
      rw [hphase] at hcap
      exact capped_settle hcap ⟨trivial, hunfailed⟩
  | observesDeadline hphase =>
      rw [hphase] at hcap
      exact capped_settle hcap ⟨trivial, hunfailed⟩
  | timesOut => exact capped_failWithAbort ⟨trivial, hunfailed⟩
  | waitsToComplete => exact ⟨Nat.zero_le _, hunfailed⟩
  | sendsCompletion => exact ⟨Nat.zero_le _, trivial, hunfailed⟩
  | completes => exact ⟨Nat.zero_le _, trivial, hunfailed⟩
  | failsToComplete => exact capped_failWithAbort ⟨trivial, hunfailed⟩
  | givesUp => exact capped_failWithAbort ⟨trivial, hunfailed⟩
  | goesOn => exact ⟨Nat.zero_le _, hunfailed⟩
  | aborts => exact ⟨Nat.zero_le _, trivial, hunfailed⟩

theorem capped_run {sha : Sha256} {labels : List Label}
    (h : Lib.exec (Worker.step sha) (Worker.init q) labels = some w) :
    Capped q w := by
  have hboth : Inv q w ∧ Capped q w :=
    Lib.exec_invariant (I := fun w => Inv q w ∧ Capped q w)
      (fun hstep hi => ⟨inv_step hstep hi.1, capped_step hstep hi.1 hi.2⟩) h
      ⟨inv_init, Nat.zero_le _, trivial⟩
  exact hboth.2

end Pieces

/-! ## Counting the parts -/

section Counts

variable {q : ManagedMultipartUploadRequest} {job : Job} {h : List Event}

theorem mem_pushed {i : Nat} : i ∈ h.filterMap pushedNumber ↔
    .partPushed i ∈ h := by
  rw [List.mem_filterMap]
  constructor
  · rintro ⟨e, he, hi⟩
    cases e <;> cases hi
    exact he
  · intro hi
    exact ⟨_, hi, rfl⟩

theorem mem_resolved {i : Nat} : i ∈ h.filterMap resolvedNumber ↔
    ∃ reply, .partResolved i reply ∈ h := by
  rw [List.mem_filterMap]
  constructor
  · rintro ⟨e, he, hi⟩
    cases e <;> cases hi
    exact ⟨_, he⟩
  · rintro ⟨reply, hi⟩
    exact ⟨_, hi, rfl⟩

theorem nodup_pushed (hlaw : Lib.Justified (Lawful q) h) :
    (h.filterMap pushedNumber).Nodup := by
  refine Lib.Justified.nodup_filterMap ?_ hlaw
  intro e past i hl he x hx hxi
  cases e <;> cases he
  cases x <;> cases hxi
  exact hl.2 hx

theorem nodup_resolved (hlaw : Lib.Justified (Lawful q) h) :
    (h.filterMap resolvedNumber).Nodup := by
  refine Lib.Justified.nodup_filterMap ?_ hlaw
  intro e past i hl he x hx hxi
  cases e <;> cases he
  cases x <;> cases hxi
  exact hl.2.2.1 _ hx

theorem length_of_interval {numbers : List Nat} {n : Nat}
    (hnodup : numbers.Nodup) (hmem : ∀ i, i ∈ numbers ↔ 1 ≤ i ∧ i ≤ n) :
    numbers.length = n := by
  have hperm : numbers.Perm (List.range' 1 n) := by
    rw [List.perm_ext_iff_of_nodup hnodup List.nodup_range']
    intro i
    rw [hmem, List.mem_range'_1]
    omega
  rw [hperm.length_eq, List.length_range']

theorem JobInv.count_pushed (hj : JobInv q job h)
    (hlaw : Lib.Justified (Lawful q) h) :
    job.nextPart = pushedCount h + 1 := by
  have hcount : pushedCount h = job.nextPart - 1 := by
    refine length_of_interval (nodup_pushed hlaw) fun i => ?_
    rw [mem_pushed, hj.pushed]
    omega
  have hpos := hj.next_pos
  omega

theorem JobInv.count_resolved (hj : JobInv q job h)
    (hlaw : Lib.Justified (Lawful q) h) :
    resolvedCount h + job.pending.length + 1 = job.nextPart := by
  have hdisjoint :
      List.Disjoint (h.filterMap resolvedNumber)
          (job.pending.map InFlight.number) := by
    intro i hi hpending
    obtain ⟨reply, hreply⟩ := mem_resolved.mp hi
    obtain ⟨f, hf, rfl⟩ := List.mem_map.mp hpending
    exact hj.unresolved f hf reply hreply
  have hcount :
      (h.filterMap resolvedNumber ++ job.pending.map InFlight.number).length =
          job.nextPart - 1 := by
    refine length_of_interval
      ((nodup_resolved hlaw).append hj.nodup hdisjoint) fun i => ?_
    rw [List.mem_append, mem_resolved, List.mem_map]
    constructor
    · rintro (⟨reply, hreply⟩ | ⟨f, hf, rfl⟩)
      · have hpushed :=
          (hj.pushed i).mp
            (hj.begun_pushed i (hj.resolved_begun i reply hreply))
        omega
      · have hknown := hj.known f hf
        omega
    · rintro ⟨hlow, hhigh⟩
      by_cases hpending : ∃ f ∈ job.pending, f.number = i
      · exact .inr hpending
      · refine .inl (hj.resolved i hlow (by omega) ?_)
        intro f hf hn
        exact hpending ⟨f, hf, hn⟩
  rw [List.length_append, List.length_map] at hcount
  have hpos := hj.next_pos
  have hresolved : resolvedCount h = (h.filterMap resolvedNumber).length := rfl
  omega

theorem JobInv.heldBytes_le (hj : JobInv q job h) :
    job.heldBytes ≤ job.pending.length * q.options.partSize := by
  have hbody : ∀ n ∈ job.pending.map job.bodyLength,
      n ≤ q.options.partSize := by
    intro n hn
    obtain ⟨f, hf, rfl⟩ := List.mem_map.mp hn
    rw [Job.bodyLength]
    split
    · exact Nat.zero_le _
    · rw [hj.inside hf, ← hj.size]
      dsimp only
      rw [Lib.length_piece]
      exact Nat.min_le_left _ _
  have hsum := List.sum_le_card_nsmul _ _ hbody
  rwa [List.length_map, smul_eq_mul] at hsum

end Counts

/-! ## The bounds -/

/-- The resources of a job that is under way. -/
structure Bounded (q : ManagedMultipartUploadRequest) (job : Job)
    (h : List Event) : Prop where
  inFlight : job.pending.length ≤ q.options.concurrency
  next : job.nextPart = pushedCount h + 1
  next_le : job.nextPart ≤ 10001
  held : job.heldBytes ≤ q.options.maximumBufferedBytes

/-- The loop waits: some part is in flight, and all the others have resolved or
are still to be pushed. -/
structure Waiting (job : Job) (partCount : Nat) (h : List Event) : Prop where
  inFlight : 0 < job.pending.length
  remaining :
    resolvedCount h + job.pending.length + (partCount + 1 - job.nextPart) =
      partCount

section Runs

variable {q : ManagedMultipartUploadRequest} {sha : Sha256} {w : Worker}
  {labels : List Label}

theorem JobInv.bounded {job : Job} (hj : JobInv q job w.history)
    (hlaw : Lib.Justified (Lawful q) w.history)
    (hpending : job.pending.length ≤ q.options.concurrency) :
    Bounded q job w.history := by
  have hk : 0 < q.options.partSize :=
    lt_of_lt_of_le (by decide) q.options.partSize_ge
  obtain ⟨-, hmax, -⟩ := PreparedMultipartSource.partCount_ok hk hj.count
  refine ⟨hpending, hj.count_pushed hlaw, ?_, ?_⟩
  · exact hj.next_le.trans (Nat.succ_le_succ hmax)
  · refine hj.heldBytes_le.trans ?_
    rw [MultipartOptions.maximumBufferedBytes, Nat.mul_comm]
    exact Nat.mul_le_mul_left _ hpending

theorem resolvedCount_uploaded {source : PreparedMultipartSource} {n : Nat}
    {upload : MultipartUpload} (hlaw : Lib.Justified (Lawful q) w.history)
    (hsource : .prepared source ∈ w.history)
    (hcount : source.partCount q.options.partSize = .ok n)
    (hup : .partsUploaded upload ∈ w.history) :
    resolvedCount w.history = n := by
  obtain ⟨-, hpushed, hresolved, -⟩ := uploaded_of_mem hlaw hsource hcount hup
  refine length_of_interval (nodup_resolved hlaw) fun i => ?_
  rw [mem_resolved]
  constructor
  · rintro ⟨reply, hreply⟩
    exact (hpushed i).mp (pushed_of_begun hlaw (begun_of_resolved hlaw hreply))
  · rintro ⟨hlow, hhigh⟩
    exact hresolved i hlow hhigh

theorem uploaded_of_issued {r : CompleteMultipartUploadRequest}
    (hlaw : Lib.Justified (Lawful q) w.history)
    (hissued : .completeIssued r ∈ w.history) :
    ∃ upload, .partsUploaded upload ∈ w.history := by
  obtain ⟨past, hsuffix, upload, rest, rfl, -⟩ := hlaw.of_mem hissued
  exact ⟨upload, hsuffix.subset (List.mem_cons_self ..)⟩

/-- Without a failure an upload that was created is waiting for its parts, or
has returned them. -/
theorem waiting_or_uploaded (hi : Inv q w) {id : UploadId}
    (hcreated : .createReturned (.ok id) ∈ w.history)
    (hnone : originalFailure w.history = none) :
    (∃ job, w.phase = .uploading job) ∨
    ∃ upload, .partsUploaded upload ∈ w.history := by
  obtain ⟨-, hlaw, hp⟩ := hi
  have hfailed : ∀ {e : S3Error}, originalFailure w.history ≠ some e := by
    intro e he
    rw [hnone] at he
    cases he
  cases hphase : w.phase with
  | uploading job => exact .inl ⟨job, rfl⟩
  | preparing =>
      rw [hphase] at hp
      cases hp _ hcreated
  | counted source n =>
      rw [hphase] at hp
      rcases hp.2.2 _ hcreated with h | h <;> cases h
  | creating source n =>
      rw [hphase] at hp
      rcases hp.2.2.2 _ hcreated with h | h | ⟨r, h⟩ <;> cases h
  | quiescing job primary =>
      rw [hphase] at hp
      exact absurd hp.2 hfailed
  | completing id stage =>
      rw [hphase] at hp
      obtain ⟨r, hr⟩ := hp.issued
      exact .inr (uploaded_of_issued hlaw hr)
  | completePolled id stage =>
      rw [hphase] at hp
      obtain ⟨r, hr⟩ := hp.1.issued
      exact .inr (uploaded_of_issued hlaw hr)
  | aborting id failure =>
      rw [hphase] at hp
      exact absurd hp.original hfailed
  | panicked =>
      rw [hphase] at hp
      cases hp
  | finished result =>
      rw [hphase] at hp
      cases hp with
      | early e _ hnever _ => exact absurd hcreated (hnever id)
      | completed id' output _ _ hreturned _ =>
          obtain ⟨past, hsuffix, ⟨r, hr⟩, -⟩ := hlaw.of_mem hreturned
          exact .inr (uploaded_of_issued hlaw (hsuffix.subset hr))
      | aborted id' failure answer _ hinv _ =>
          exact absurd hinv.original hfailed

/-- At every point of every run: the job under way is inside its bounds, and the
bound on the bodies is a number of 64 bits; after a failure nothing was pushed;
and without one, the created upload is waiting for a part while fewer than all
have resolved, and has returned when all of them have. -/
theorem uploadParts_bounded
    (hrun : Lib.exec (Worker.step sha) (Worker.init q) labels = some w) :
    (∀ job, (w.phase = .uploading job ∨
      ∃ primary, w.phase = .quiescing job primary) → Bounded q job w.history) ∧
    q.options.maximumBufferedBytes < 2 ^ 64 ∧
    (∀ later past e, w.history = later ++ e :: past → failureOf e ≠ none →
      ∀ i, .partPushed i ∉ later) ∧
    ∀ source n id, .prepared source ∈ w.history →
    source.partCount q.options.partSize = .ok n →
      .createReturned (.ok id) ∈ w.history → originalFailure w.history = none →
        (∃ job, w.phase = .uploading job ∧ Waiting job n w.history ∧
          resolvedCount w.history < n ∧
          ∀ upload, .partsUploaded upload ∉ w.history) ∨
        ∃ upload, .partsUploaded upload ∈ w.history ∧
        resolvedCount w.history = n := by
  have hi := inv_run hrun
  have hc := capped_run hrun
  obtain ⟨-, hlaw, hp⟩ := hi
  refine ⟨?_, q.options.maximumBufferedBytes_lt, ?_, ?_⟩
  · rintro job (hphase | ⟨primary, hphase⟩)
    · rw [hphase] at hp
      have hcap := hc.inFlight
      rw [hphase] at hcap
      exact hp.1.bounded hlaw hcap
    · rw [hphase] at hp
      have hcap := hc.inFlight
      rw [hphase] at hcap
      exact hp.1.bounded hlaw hcap
  · intro later past e hhistory hfailure i hpush
    obtain ⟨l₁, l₂, rfl⟩ := List.append_of_mem hpush
    have hunfailed := hc.unfailed
    rw [hhistory, List.append_assoc, List.cons_append] at hunfailed
    have hnone : originalFailure (l₂ ++ e :: past) = none := hunfailed.at_split
    have hfailed : ∀ l : List Event, originalFailure (l ++ e :: past) ≠
        none := by
      intro l
      induction l with
      | nil =>
          rw [List.nil_append, originalFailure, ne_eq, Option.or_eq_none_iff]
          rintro ⟨-, he⟩
          exact hfailure he
      | cons x l ih =>
          rw [List.cons_append, originalFailure, ne_eq, Option.or_eq_none_iff]
          rintro ⟨hl, -⟩
          exact ih hl
    exact hfailed l₂ hnone
  · intro source n id hsource hcount hcreated hnone
    by_cases hreturned : ∃ upload, .partsUploaded upload ∈ w.history
    · obtain ⟨upload, hup⟩ := hreturned
      exact .inr ⟨upload, hup, resolvedCount_uploaded hlaw hsource hcount hup⟩
    · rcases waiting_or_uploaded
        (inv_run hrun) hcreated hnone with ⟨job, hphase⟩ | hup
      · rw [hphase] at hp
        obtain ⟨hj, -, hne⟩ := hp
        have hpending : 0 < job.pending.length := List.length_pos_iff.mpr hne
        obtain rfl := hj.unique source hsource
        have hpartCount : job.partCount = n :=
          Except.ok.inj (hj.count.symm.trans hcount)
        have hresolved := hj.count_resolved hlaw
        have hle := hj.next_le
        refine .inl ⟨job, hphase, ⟨hpending, ?_⟩, ?_, ?_⟩
        · omega
        · omega
        · intro upload hup
          exact hreturned ⟨upload, hup⟩
      · exact absurd hup hreturned

end Runs

/-- Two parts: when the second is answered the first is awaited, and when both
are the loop has returned. -/
theorem uploadParts_bounded_two_parts :
    (twoPartRequest twoPartBuffer).options.maximumBufferedBytes < 2 ^ 64 ∧
    (∃ w job,
      Lib.exec (Worker.step standardSha256)
        (Worker.init (twoPartRequest twoPartBuffer))
        twoPartsHalf = some w ∧
      w.phase = .uploading job ∧
      Bounded (twoPartRequest twoPartBuffer) job w.history ∧
      Waiting job 2 w.history ∧ resolvedCount w.history = 1) ∧
    ∃ w upload,
      Lib.exec (Worker.step standardSha256)
        (Worker.init (twoPartRequest twoPartBuffer))
        twoParts = some w ∧
      .partsUploaded upload ∈ w.history ∧ resolvedCount w.history = 2 := by
  obtain ⟨_, first, second, upload, request, hw, hhistory, -, -⟩ :=
    @twoParts_run standardSha256 twoPartBuffer twoPartBuffer_count
  obtain ⟨first', second', hhalf⟩ :=
    @twoParts_half standardSha256 twoPartBuffer twoPartBuffer_count
  obtain ⟨-, hmaximum, -, hloop⟩ := uploadParts_bounded hw
  obtain ⟨hbounded, -, -, hloop'⟩ := uploadParts_bounded hhalf
  refine ⟨hmaximum, ⟨_, _, hhalf, rfl, hbounded _ (Or.inl rfl), ?_, rfl⟩, _,
    upload, hw, ?_, ?_⟩
  · rcases hloop' (.bytes twoPartBuffer) 2 oneByteUploadId
      (by simp [twoPartWorker, twoPartHistory, twoPartsPushed])
      twoPartBuffer_count
          (by simp [twoPartWorker, twoPartHistory, twoPartsPushed]) rfl with
      ⟨job, hphase, hwaiting, -⟩ | ⟨upload', hup, -⟩
    · cases hphase
      exact hwaiting
    · simp [twoPartWorker, twoPartHistory, twoPartsPushed] at hup
  · rw [hhistory]
    simp
  · rw [hhistory]
    rfl

end S3Wire
