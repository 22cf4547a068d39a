/-
# `S3Wire.Client.MultipartUpload.Discipline` — the invariant of the worker

What holds of every state of every run of the managed upload, in two halves.

* `Lawful` orders the history: what must, and what must not, have happened before
  each event.  Parts are pushed, begun and resolved once each, all of it between
  the creation and the end of the part phase; the completion comes after every
  part; the abort comes once, after the parts have settled or the time to settle
  them has run out, and never after a successful completion.  Four events are
  lawful under no circumstances: they mark the branches that are never taken.
* `PhaseInv` ties the state to the history: which parts are in flight is exactly
  which parts the history has begun and not resolved.

`inv_step` is the one-step lemma, a case analysis over the turns of the worker
with one lemma for each piece that a turn calls; `inv_run` is the invariant of
whole runs.
-/
import S3Wire.Client.MultipartUpload.Turn

namespace S3Wire

/-! ## Reading a history -/

/-- Events of a run whose part phase is not over. -/
def Event.isOpen : Event → Bool
  | .cancelled | .prepared _ | .createIssued _ | .createReturned _ => true
  | .partPushed _ | .partBegun _ | .partSent _ | .partResolved _ _ => true
  | .cancelObserved | .deadlineObserved | .settleTimedOut => true
  | _ => false

/-- Events before the creation has succeeded. -/
def Event.isEarly : Event → Bool
  | .cancelled | .prepared _ | .createIssued _ | .createReturned _ => true
  | _ => false

/-- Events of single parts. -/
def Event.isPart : Event → Bool
  | .partPushed _ | .partBegun _ | .partSent _ | .partResolved _ _ => true
  | _ => false

/-- The failure an event brings, if it does. -/
def failureOf : Event → Option S3Error
  | .partResolved number reply =>
      match partResult number reply with
      | .error e => some e
      | .ok _ => none
  | .recordRejected e => some (S3Error.integrity e.toString)
  | .schedulerLost => some S3Wire.schedulerLost
  | .cancelObserved => some S3Wire.cancelled
  | .deadlineObserved => some transferTimeout
  | .completionRejected e => some (S3Error.integrity e.toString)
  | .completeReturned (.error e) => some e
  | _ => none

/-- The first failure of a run. -/
def originalFailure : List Event → Option S3Error
  | [] => none
  | e :: past => (originalFailure past).or (failureOf e)

theorem originalFailure_cons_none {e : Event} {h : List Event}
    (he : failureOf e = none) :
    originalFailure (e :: h) = originalFailure h := by
  simp [originalFailure, he]

theorem originalFailure_cons_some {e : Event} {h : List Event} {f : S3Error}
    (hf : originalFailure h = some f) : originalFailure (e :: h) = some f := by
  simp [originalFailure, hf]

theorem originalFailure_cons_first {e : Event} {h : List Event}
    (hf : originalFailure h = none) :
    originalFailure (e :: h) = failureOf e := by
  simp [originalFailure, hf]

theorem originalFailure_none {h : List Event}
    (hh : ∀ e ∈ h, failureOf e = none) :
    originalFailure h = none := by
  induction h with
  | nil => rfl
  | cons e h ih =>
      rw [originalFailure_cons_none (hh e (by simp))]
      exact ih fun x hx => hh x (by simp [hx])

/-- The upload exists and its part phase is not over. -/
def Open (h : List Event) : Prop :=
  (∃ id, .createReturned (.ok id) ∈ h) ∧ ∀ e ∈ h, e.isOpen = true

/-- Every part that was pushed has resolved. -/
def Settled (h : List Event) : Prop :=
  ∀ i, .partPushed i ∈ h → ∃ reply, .partResolved i reply ∈ h

/-- Everything `upload_parts` promises about the upload it returns. -/
def Uploaded (q : ManagedMultipartUploadRequest) (upload : MultipartUpload)
    (h : List Event) :
    Prop :=
  ∃ source n, .prepared source ∈ h ∧
    source.partCount q.options.partSize = .ok n ∧
    upload.completedParts.map CompletedPart.number =
      (List.range n).map (· + 1) ∧
    (∀ i, .partPushed i ∈ h ↔ 1 ≤ i ∧ i ≤ n) ∧
    ∀ p ∈ upload.completedParts, ∃ reply,
      .partResolved p.number reply ∈ h ∧ partResult p.number reply = .ok p

/-- What each event requires of the events before it. -/
def Lawful (q : ManagedMultipartUploadRequest) : Event → List Event → Prop
  | .prepared source, past =>
      (∀ e ∈ past, e = .cancelled) ∧
        (∀ buffer, q.source = .bytes buffer → source = .bytes buffer)
  | .createIssued _, past => ∀ e ∈ past, e = .cancelled ∨ ∃ s, e = .prepared s
  | .createReturned _, past =>
      (∃ r, .createIssued r ∈ past) ∧
        ∀ e ∈ past, e = .cancelled ∨ (∃ s, e = .prepared s) ∨
          ∃ r, e = .createIssued r
  | .partPushed i, past => Open past ∧ .partPushed i ∉ past
  | .partBegun i, past => Open past ∧ .partPushed i ∈ past ∧ .partBegun i ∉ past
  | .partSent r, past =>
      Open past ∧ .partBegun r.partNumber.get ∈ past ∧
        ∃ source, .prepared source ∈ past ∧
          source.readPart q.options.partSize r.partNumber.get = .ok r.body
  | .partResolved i reply, past =>
      Open past ∧ .partBegun i ∈ past ∧
        (∀ reply', .partResolved i reply' ∉ past) ∧
        ∀ headers, reply = .response headers →
          ∃ r, .partSent r ∈ past ∧ r.partNumber.get = i
  | .partsUploaded upload, past =>
      Open past ∧ Settled past ∧ Uploaded q upload past
  | .settleTimedOut, past => Open past
  | .completeIssued r, past =>
      ∃ upload rest, past = .partsUploaded upload :: rest ∧
        r.completedParts = upload.completedParts ∧
          .createReturned (.ok r.uploadId) ∈ rest
  | .completeSent, past =>
      (∃ r, .completeIssued r ∈ past) ∧ .completeSent ∉ past
  | .completeReturned _, past =>
      (∃ r, .completeIssued r ∈ past) ∧ ∀ r, .completeReturned r ∉ past
  | .abortIssued a, past =>
      (∃ id, .createReturned (.ok id) ∈ past) ∧
        .createReturned (.ok a.uploadId) ∈ past ∧
        (∀ a', .abortIssued a' ∉ past) ∧
        (∀ output, .completeReturned (.ok output) ∉ past) ∧
        (Settled past ∨ .settleTimedOut ∈ past)
  | .abortReturned _, past => ∃ a, .abortIssued a ∈ past
  | .recordRejected _, _ => False
  | .schedulerLost, _ => False
  | .completionRejected _, _ => False
  | .panicked, _ => False
  | .cancelled, _ => True
  | .cancelObserved, _ => True
  | .deadlineObserved, _ => True

/-! ## State and history -/

/-- The variables of `upload_parts`, as the history determines them. -/
structure JobInv (q : ManagedMultipartUploadRequest) (job : Job)
    (h : List Event) : Prop where
  size : job.context.partSize = q.options.partSize
  source : .prepared job.context.source ∈ h
  unique : ∀ s, .prepared s ∈ h → s = job.context.source
  count : job.context.source.partCount q.options.partSize = .ok job.partCount
  created : .createReturned (.ok job.context.uploadId) ∈ h
  isOpen : ∀ e ∈ h, e.isOpen = true
  next_pos : 1 ≤ job.nextPart
  next_le : job.nextPart ≤ job.partCount + 1
  pushed : ∀ i, .partPushed i ∈ h ↔ 1 ≤ i ∧ i < job.nextPart
  nodup : (job.pending.map InFlight.number).Nodup
  known : ∀ f ∈ job.pending, 1 ≤ f.number ∧ f.number < job.nextPart
  unresolved : ∀ f ∈ job.pending, ∀ reply, .partResolved f.number reply ∉ h
  begun : ∀ f ∈ job.pending, .partBegun f.number ∈ h ↔ f.stage ≠ .unpolled
  sent : ∀ f ∈ job.pending, f.stage = .sent → ∃ r, .partSent r ∈ h ∧
    r.partNumber.get = f.number
  resolved : ∀ i, 1 ≤ i → i < job.nextPart → (∀ f ∈ job.pending, f.number ≠ i) →
    ∃ reply, .partResolved i reply ∈ h
  begun_pushed : ∀ i, .partBegun i ∈ h → .partPushed i ∈ h
  resolved_begun : ∀ i reply, .partResolved i reply ∈ h → .partBegun i ∈ h
  noTimeout : .settleTimedOut ∉ h

/-- No failure so far, and the recorded parts are the results so far. -/
structure Recorded (job : Job) (h : List Event) : Prop where
  id : job.upload.uploadId = job.context.uploadId
  noFailure : originalFailure h = none
  recorded : ∀ i reply, .partResolved i reply ∈ h →
    ∃ p ∈ job.upload.completedParts, partResult i reply = .ok p
  only : ∀ p ∈ job.upload.completedParts, ∃ reply,
    .partResolved p.number reply ∈ h ∧ partResult p.number reply = .ok p

/-- The completion is under way. -/
structure CompletionInv (id : UploadId) (stage : CompletionStage)
    (h : List Event) : Prop where
  created : .createReturned (.ok id) ∈ h
  issued : ∃ r, .completeIssued r ∈ h
  sent : .completeSent ∈ h ↔ stage = .sent
  noReturn : ∀ r, .completeReturned r ∉ h
  noAbort : ∀ a, .abortIssued a ∉ h
  noFailure : originalFailure h = none
  settled : Settled h
  noTimeout : .settleTimedOut ∉ h

/-- The abort is issued and not answered. -/
structure AbortInv (id : UploadId) (failure : ManagedUploadFailure)
    (h : List Event) : Prop where
  created : .createReturned (.ok id) ∈ h
  issued : ∃ a, .abortIssued a ∈ h ∧ a.uploadId = id
  noSuccess : ∀ output, .completeReturned (.ok output) ∉ h
  original : originalFailure h = some failure.primary
  quiesced : failure.quiesceFailure = none → .settleTimedOut ∉ h

/-- How a run ends. -/
inductive FinishedInv (result : Except S3Error CompleteMultipartUploadOutput)
    (h : List Event) :
    Prop
  | early (e : S3Error) (hresult : result = .error e)
      (hnone : ∀ id, .createReturned (.ok id) ∉ h)
      (hearly : ∀ x ∈ h, x.isEarly = true)
  | completed (id : UploadId) (output : CompleteMultipartUploadOutput)
      (hresult : result = .ok output)
      (hcreated : .createReturned (.ok id) ∈ h)
      (hreturned : .completeReturned (.ok output) ∈ h)
      (hnoAbort : ∀ a, .abortIssued a ∉ h)
  | aborted (id : UploadId) (failure : ManagedUploadFailure)
      (answer : Except S3Error RequestIds)
      (hresult : result = .error (failure.result answer))
      (hinv : AbortInv id failure h)
      (hanswer : .abortReturned answer ∈ h)

/-- What each phase knows of the history. -/
def PhaseInv (q : ManagedMultipartUploadRequest) : Phase → List Event → Prop
  | .preparing, h => ∀ e ∈ h, e = .cancelled
  | .counted source n, h =>
      .prepared source ∈ h ∧ source.partCount q.options.partSize = .ok n ∧
        ∀ e ∈ h, e = .cancelled ∨ e = .prepared source
  | .creating source n, h =>
      .prepared source ∈ h ∧ source.partCount q.options.partSize = .ok n ∧
        (∃ r, .createIssued r ∈ h) ∧
        ∀ e ∈ h, e = .cancelled ∨ e = .prepared source ∨
          ∃ r, e = .createIssued r
  | .uploading job, h => JobInv q job h ∧ Recorded job h ∧ job.pending ≠ []
  | .quiescing job primary, h =>
      JobInv q job h ∧ originalFailure h = some primary
  | .completing id stage, h => CompletionInv id stage h
  | .completePolled id stage, h => CompletionInv id stage h ∧ stage ≠ .unpolled
  | .aborting id failure, h => AbortInv id failure h
  | .panicked, _ => False
  | .finished result, h => FinishedInv result h

/-- The invariant of the worker. -/
structure Inv (q : ManagedMultipartUploadRequest) (w : Worker) : Prop where
  request : w.request = q
  lawful : Lib.Justified (Lawful q) w.history
  phase : PhaseInv q w.phase w.history

/-! ## Refilling -/

/-- A refill appends consecutive numbers, and stops for one of its two
reasons. -/
theorem refill_spec (concurrency partCount : Nat) :
    ∀ (fuel nextPart : Nat) (pending : List InFlight),
    concurrency ≤ pending.length + fuel → nextPart ≤ partCount + 1 →
    ∃ k, refill concurrency partCount fuel nextPart pending =
        (nextPart + k, pending ++ (List.range' nextPart k).map fun i =>
          ⟨i, .unpolled⟩) ∧
      nextPart + k ≤ partCount + 1 ∧
      (concurrency ≤ pending.length + k ∨ partCount < nextPart + k)
  | 0, nextPart, pending, hfuel, hnext => by
      refine ⟨0, by simp [refill], hnext, Or.inl (by omega)⟩
  | fuel + 1, nextPart, pending, hfuel, hnext => by
      unfold refill
      split
      · next hguard =>
          obtain ⟨k, heq, hle, hstop⟩ :=
            refill_spec concurrency partCount fuel (nextPart + 1)
            (pending ++ [⟨nextPart, .unpolled⟩]) (by simp; omega) (by omega)
          refine ⟨k + 1, ?_, by omega, ?_⟩
          · rw [heq, List.range'_succ]
            simp [Nat.add_comm, Nat.add_left_comm]
          · simp only [List.length_append, List.length_singleton] at hstop
            omega
      · next hguard =>
          refine ⟨0, by simp, hnext, ?_⟩
          by_cases hlen : pending.length < concurrency
          · right
            by_contra hle
            exact hguard ⟨hlen, by omega⟩
          · left
            omega

theorem Job.refilled_spec (job : Job) (concurrency : Nat)
    (hnext : job.nextPart ≤ job.partCount + 1) :
    ∃ k, job.refilled concurrency =
        { job with
          nextPart := job.nextPart + k
          pending := job.pending ++ (List.range' job.nextPart k).map fun i =>
            ⟨i, .unpolled⟩ } ∧
      job.pushedBy concurrency = (List.range' job.nextPart k).reverse ∧
      job.nextPart + k ≤ job.partCount + 1 ∧
      (concurrency ≤ job.pending.length + k ∨
          job.partCount < job.nextPart + k) := by
  obtain ⟨k, heq, hle, hstop⟩ :=
    refill_spec concurrency job.partCount concurrency job.nextPart
    job.pending (by omega) hnext
  have hrefilled : job.refilled concurrency =
      { job with
        nextPart := job.nextPart + k
        pending := job.pending ++ (List.range' job.nextPart k).map fun i =>
            ⟨i, .unpolled⟩ } := by
    simp only [Job.refilled, heq]
  refine ⟨k, hrefilled, ?_, hle, hstop⟩
  simp [Job.pushedBy, hrefilled]

/-! ## Events that do not concern the parts -/

section Inert

variable {q : ManagedMultipartUploadRequest} {job : Job} {h : List Event}
  {e : Event}

/-- An event of the part phase that says nothing about a part or the
creation. -/
def Event.isInert : Event → Bool
  | .cancelled | .cancelObserved | .deadlineObserved => true
  | _ => false

theorem JobInv.cons_inert (hj : JobInv q job h) (he : e.isInert = true) :
    JobInv q job (e :: h) := by
  have hne : ∀ x : Event, x.isInert = false → x ≠ e := by
    rintro x hx rfl
    rw [hx] at he
    cases he
  have hmem : ∀ x : Event, x.isInert = false → (x ∈ e :: h ↔ x ∈ h) :=
    fun x hx => by
    simp [hne x hx]
  have hopen : e.isOpen = true := by
    cases e <;> first | rfl | cases he
  refine
    { size := hj.size
      source := List.mem_cons_of_mem _ hj.source
      unique := fun s hs => hj.unique s ((hmem _ rfl).mp hs)
      count := hj.count
      created := List.mem_cons_of_mem _ hj.created
      isOpen := List.forall_mem_cons.mpr ⟨hopen, hj.isOpen⟩
      next_pos := hj.next_pos
      next_le := hj.next_le
      pushed := fun i => (hmem _ rfl).trans (hj.pushed i)
      nodup := hj.nodup
      known := hj.known
      unresolved :=
        fun f hf reply hr => hj.unresolved f hf reply ((hmem _ rfl).mp hr)
      begun := fun f hf => (hmem _ rfl).trans (hj.begun f hf)
      sent := fun f hf hs => ?_
      resolved := fun i h1 h2 h3 => ?_
      begun_pushed := fun i hi => ?_
      resolved_begun := fun i reply hi => ?_
      noTimeout := fun ht => hj.noTimeout ((hmem _ rfl).mp ht) }
  · obtain ⟨r, hr, hn⟩ := hj.sent f hf hs
    exact ⟨r, List.mem_cons_of_mem _ hr, hn⟩
  · obtain ⟨reply, hr⟩ := hj.resolved i h1 h2 h3
    exact ⟨reply, List.mem_cons_of_mem _ hr⟩
  · exact List.mem_cons_of_mem _ (hj.begun_pushed i ((hmem _ rfl).mp hi))
  · exact List.mem_cons_of_mem _
      (hj.resolved_begun i reply ((hmem _ rfl).mp hi))

theorem JobInv.isOpenHistory (hj : JobInv q job h) : Open h :=
  ⟨⟨_, hj.created⟩, hj.isOpen⟩

theorem JobInv.settled (hj : JobInv q job h) (hempty : job.pending = []) :
    Settled h := by
  intro i hi
  obtain ⟨h1, h2⟩ := (hj.pushed i).mp hi
  exact hj.resolved i h1 h2 (by simp [hempty])

theorem JobInv.noAbort (hj : JobInv q job h) (a : AbortMultipartUploadRequest) :
    .abortIssued a ∉ h :=
  fun ha => Bool.false_ne_true (hj.isOpen _ ha)

theorem JobInv.noReturn (hj : JobInv q job h)
    (r : Except S3Error CompleteMultipartUploadOutput) :
    .completeReturned r ∉ h :=
  fun hr => Bool.false_ne_true (hj.isOpen _ hr)

end Inert

/-! ## One lemma for each thing that happens to a part -/

section Parts

variable {q : ManagedMultipartUploadRequest} {job : Job} {h : List Event}
  {number : Nat}

theorem JobInv.push (hj : JobInv q job h) (hle : job.nextPart ≤ job.partCount) :
    JobInv q { job with
      nextPart := job.nextPart + 1
      pending :=
        job.pending ++ [⟨job.nextPart, .unpolled⟩] }
          (.partPushed job.nextPart :: h) ∧
    Lawful q (.partPushed job.nextPart) h := by
  have hfresh : .partPushed job.nextPart ∉ h := fun hp => by
    have := ((hj.pushed _).mp hp).2
    omega
  have hold : ∀ f ∈ job.pending, f.number ≠ job.nextPart := fun f hf => by
    have := (hj.known f hf).2
    omega
  refine ⟨?_, hj.isOpenHistory, hfresh⟩
  refine
    { size := hj.size
      source := List.mem_cons_of_mem _ hj.source
      unique := fun s hs => hj.unique s (by simpa using hs)
      count := hj.count
      created := List.mem_cons_of_mem _ hj.created
      isOpen := List.forall_mem_cons.mpr ⟨rfl, hj.isOpen⟩
      next_pos := by simp only; omega
      next_le := by simp only; omega
      pushed := fun i => ?_
      nodup := ?_
      known := fun f hf => ?_
      unresolved := fun f hf reply hr => ?_
      begun := fun f hf => ?_
      sent := fun f hf hs => ?_
      resolved := fun i h1 h2 h3 => ?_
      begun_pushed :=
        fun i hi =>
          List.mem_cons_of_mem _ (hj.begun_pushed i (by simpa using hi))
      resolved_begun := fun i reply hi =>
        List.mem_cons_of_mem _ (hj.resolved_begun i reply (by simpa using hi))
      noTimeout := by simpa using hj.noTimeout }
  · have hnext := hj.next_pos
    simp only [List.mem_cons, Event.partPushed.injEq, hj.pushed i]
    omega
  · simp only [List.map_append, List.map_cons, List.map_nil]
    refine List.nodup_append.mpr ⟨hj.nodup, by simp, ?_⟩
    intro a ha b hb
    obtain ⟨f, hf, rfl⟩ := List.mem_map.mp ha
    simp only [List.mem_singleton] at hb
    exact hb ▸ hold f hf
  · rcases List.mem_append.mp hf with hf | hf
    · have := hj.known f hf
      simp only
      omega
    · simp only [List.mem_singleton] at hf
      subst hf
      exact ⟨hj.next_pos, Nat.lt_succ_self _⟩
  · have hr' : .partResolved f.number reply ∈ h := by simpa using hr
    rcases List.mem_append.mp hf with hf | hf
    · exact hj.unresolved f hf reply hr'
    · -- the new number cannot have resolved: nothing past `next_part` was ever pushed
      simp only [List.mem_singleton] at hf
      subst hf
      exact hfresh (hj.begun_pushed _ (hj.resolved_begun _ _ hr'))
  · rcases List.mem_append.mp hf with hf | hf
    · simpa using hj.begun f hf
    · simp only [List.mem_singleton] at hf
      subst hf
      have hno : .partBegun job.nextPart ∉ h :=
        fun hb => hfresh (hj.begun_pushed _ hb)
      simpa using hno
  · rcases List.mem_append.mp hf with hf | hf
    · obtain ⟨r, hr, hn⟩ := hj.sent f hf hs
      exact ⟨r, List.mem_cons_of_mem _ hr, hn⟩
    · simp only [List.mem_singleton] at hf
      subst hf
      cases hs
  · have hne : i ≠ job.nextPart :=
      fun heq => h3 ⟨job.nextPart, .unpolled⟩ (by simp) heq.symm
    obtain ⟨reply, hr⟩ :=
      hj.resolved i h1 (by simp only at h2; omega) fun f hf =>
      h3 f (by simp [hf])
    exact ⟨reply, List.mem_cons_of_mem _ hr⟩

theorem Job.find_some {f : InFlight} (hf : job.find number = some f) :
    f ∈ job.pending ∧ f.number = number :=
  ⟨List.mem_of_find?_eq_some hf, by simpa using List.find?_some hf⟩

theorem Job.map_number_setStage (job : Job) (number : Nat) (stage : PartStage) :
    (job.setStage number stage).pending.map InFlight.number =
      job.pending.map InFlight.number := by
  simp only [Job.setStage, List.map_map]
  refine List.map_congr_left fun f _ => ?_
  simp only [Function.comp]
  split <;> rfl

theorem Job.mem_setStage {stage : PartStage} {f : InFlight} :
    f ∈ (job.setStage number stage).pending ↔
      (f ∈ job.pending ∧ f.number ≠ number) ∨
        (f.number = number ∧ f.stage = stage ∧
          ∃ g ∈ job.pending, g.number = number) := by
  simp only [Job.setStage, List.mem_map]
  constructor
  · rintro ⟨g, hg, rfl⟩
    by_cases hn : g.number = number
    · rw [if_pos hn]
      exact Or.inr ⟨hn, rfl, g, hg, hn⟩
    · rw [if_neg hn]
      exact Or.inl ⟨hg, hn⟩
  · rintro (⟨hf, hn⟩ | ⟨hn, hs, g, hg, hgn⟩)
    · exact ⟨f, hf, if_neg hn⟩
    · refine ⟨g, hg, ?_⟩
      rw [if_pos hgn]
      cases f
      cases g
      simp_all

@[simp] theorem Job.setStage_nextPart (stage : PartStage) :
    (job.setStage number stage).nextPart = job.nextPart := rfl

@[simp] theorem Job.remove_nextPart :
    (job.remove number).nextPart = job.nextPart := rfl

theorem Job.ne_of_setStage {stage : PartStage} {i : Nat}
    (hi : ∀ g ∈ (job.setStage number stage).pending, g.number ≠ i) :
    ∀ g ∈ job.pending, g.number ≠ i := by
  intro g hg
  by_cases hn : g.number = number
  · have hmem :
        (⟨number, stage⟩ : InFlight) ∈ (job.setStage number stage).pending :=
      Job.mem_setStage.mpr (Or.inr ⟨rfl, rfl, g, hg, hn⟩)
    exact hn ▸ hi _ hmem
  · exact hi g (Job.mem_setStage.mpr (Or.inl ⟨hg, hn⟩))

/-- The two steps that move a part in flight: it begins, or its request goes
out. -/
inductive Advance (h : List Event) (number : Nat) : PartStage → Event → Prop
  | begin : Advance h number .begun (.partBegun number)
  | send (r : UploadPartRequest) : r.partNumber.get = number →
      .partBegun number ∈ h →
      Advance h number .sent (.partSent r)

theorem JobInv.advance {f : InFlight} {stage : PartStage} {e : Event}
    (hj : JobInv q job h) (hf : job.find number = some f)
    (ha : Advance h number stage e) :
    JobInv q (job.setStage number stage) (e :: h) := by
  obtain ⟨hmem, hnum⟩ := Job.find_some hf
  have hknown := hj.known f hmem
  rw [hnum] at hknown
  have hpushed : .partPushed number ∈ h := (hj.pushed number).mpr hknown
  -- an advance is neither of these
  have hkeep : (∀ s, .prepared s ≠ e) ∧ (∀ i, .partPushed i ≠ e) ∧
      (∀ i reply, .partResolved i reply ≠ e) ∧ .settleTimedOut ≠ e ∧
          e.isOpen = true := by
    cases ha <;> simp [Event.isOpen]
  obtain ⟨hprepared, hpush, hresolve, htimeout, hopen⟩ := hkeep
  refine
    { size := hj.size
      source := List.mem_cons_of_mem _ hj.source
      unique := fun s hs => hj.unique s (by simpa [hprepared s] using hs)
      count := hj.count
      created := List.mem_cons_of_mem _ hj.created
      isOpen := List.forall_mem_cons.mpr ⟨hopen, hj.isOpen⟩
      next_pos := hj.next_pos
      next_le := hj.next_le
      pushed := fun i => by simpa [hpush i] using hj.pushed i
      nodup := Job.map_number_setStage job number stage ▸ hj.nodup
      known := fun g hg => ?_
      unresolved := fun g hg reply hr => ?_
      begun := fun g hg => ?_
      sent := fun g hg hs => ?_
      resolved := fun i h1 h2 h3 => ?_
      begun_pushed := fun i hi => ?_
      resolved_begun := fun i reply hi =>
        List.mem_cons_of_mem _
          (hj.resolved_begun i reply (by simpa [hresolve i reply] using hi))
      noTimeout := by simpa [htimeout] using hj.noTimeout }
  · rcases Job.mem_setStage.mp hg with ⟨hg, -⟩ | ⟨hn, -, -⟩
    · exact hj.known g hg
    · rw [hn]
      exact hknown
  · have hr' : .partResolved g.number reply ∈ h := by
      simpa [hresolve g.number reply] using hr
    rcases Job.mem_setStage.mp hg with ⟨hg, -⟩ | ⟨hn, -, -⟩
    · exact hj.unresolved g hg reply hr'
    · exact hj.unresolved f hmem reply (by rwa [hnum, ← hn])
  · rcases Job.mem_setStage.mp hg with ⟨hg, hn⟩ | ⟨hn, hst, -⟩
    · have hother : Event.partBegun g.number ≠ e := by
        cases ha <;> simp [hn]
      simpa [hother] using hj.begun g hg
    · cases ha with
      | begin => simp [hn, hst]
      | send r hrn hb => simp [hn, hst, hb]
  · rcases Job.mem_setStage.mp hg with ⟨hg, hn⟩ | ⟨hn, hst, -⟩
    · obtain ⟨r, hr, hrn⟩ := hj.sent g hg hs
      exact ⟨r, List.mem_cons_of_mem _ hr, hrn⟩
    · cases ha with
      | begin =>
          rw [hst] at hs
          cases hs
      | send r hrn hb => exact ⟨r, List.mem_cons_self .., hrn.trans hn.symm⟩
  · obtain ⟨reply, hr⟩ := hj.resolved i h1 h2 (Job.ne_of_setStage h3)
    exact ⟨reply, List.mem_cons_of_mem _ hr⟩
  · rcases List.mem_cons.mp hi with hi | hi
    · cases ha with
      | begin =>
          cases hi
          exact List.mem_cons_of_mem _ hpushed
      | send r hrn hb => cases hi
    · exact List.mem_cons_of_mem _ (hj.begun_pushed i hi)

theorem JobInv.lawful_begin {f : InFlight} (hj : JobInv q job h)
    (hf : job.find number = some f) (hs : f.stage = .unpolled) :
    Lawful q (.partBegun number) h := by
  obtain ⟨hmem, rfl⟩ := Job.find_some hf
  exact ⟨hj.isOpenHistory, (hj.pushed _).mpr (hj.known f hmem),
    fun hb => (hj.begun f hmem).mp hb hs⟩

theorem JobInv.lawful_send {sha : Sha256} {f : InFlight} {r : UploadPartRequest}
    (hj : JobInv q job h) (hf : job.find number = some f)
    (hs : f.stage = .begun) (hr : preparePart sha job.context number = .ok r) :
    Advance h number .sent (.partSent r) ∧ Lawful q (.partSent r) h := by
  obtain ⟨hmem, rfl⟩ := Job.find_some hf
  obtain ⟨hrn, hbody, -⟩ := preparePart_ok hr
  have hbegun : .partBegun f.number ∈ h := (hj.begun f hmem).mpr (by simp [hs])
  refine ⟨.send r hrn hbegun, hj.isOpenHistory, hrn ▸ hbegun,
    job.context.source, hj.source, ?_⟩
  rw [hrn, ← hj.size]
  exact hbody

theorem JobInv.inside (hj : JobInv q job h) {f : InFlight}
    (hf : f ∈ job.pending) :
    job.context.source.readPart job.context.partSize f.number =
      .ok (Lib.piece job.context.partSize job.context.source.content
        (f.number - 1)) := by
  have hk : 0 < q.options.partSize :=
    lt_of_lt_of_le (by decide) q.options.partSize_ge
  obtain ⟨-, -, hlast, -⟩ := PreparedMultipartSource.partCount_ok hk hj.count
  obtain ⟨hpos, hlt⟩ := hj.known f hf
  have hle := hj.next_le
  rw [hj.size]
  refine PreparedMultipartSource.readPart_eq (by omega)
    (lt_of_le_of_lt ?_ hlast)
  exact Nat.mul_le_mul_right _ (by omega)

theorem Job.mem_remove {f : InFlight} :
    f ∈ (job.remove number).pending ↔ f ∈ job.pending ∧ f.number ≠ number := by
  simp [Job.remove]

theorem JobInv.resolve {f : InFlight} {reply : PartReply} (hj : JobInv q job h)
    (hf : job.find number = some f) (hs : f.stage ≠ .unpolled)
    (hreply : ∀ headers, reply = .response headers → f.stage = .sent) :
    JobInv q (job.remove number) (.partResolved number reply :: h) ∧
      Lawful q (.partResolved number reply) h := by
  obtain ⟨hmem, rfl⟩ := Job.find_some hf
  have hbegun : .partBegun f.number ∈ h := (hj.begun f hmem).mpr hs
  refine ⟨?_, hj.isOpenHistory, hbegun, hj.unresolved f hmem, ?_⟩
  · refine
      { size := hj.size
        source := List.mem_cons_of_mem _ hj.source
        unique := fun s hs => hj.unique s (by simpa using hs)
        count := hj.count
        created := List.mem_cons_of_mem _ hj.created
        isOpen := List.forall_mem_cons.mpr ⟨rfl, hj.isOpen⟩
        next_pos := hj.next_pos
        next_le := hj.next_le
        pushed := fun i => by simpa using hj.pushed i
        nodup := ?_
        known := fun g hg => hj.known g (Job.mem_remove.mp hg).1
        unresolved := fun g hg reply' hr => ?_
        begun := fun g hg => by simpa using hj.begun g (Job.mem_remove.mp hg).1
        sent := fun g hg hs => ?_
        resolved := fun i h1 h2 h3 => ?_
        begun_pushed :=
          fun i hi =>
            List.mem_cons_of_mem _ (hj.begun_pushed i (by simpa using hi))
        resolved_begun := fun i reply' hi => ?_
        noTimeout := by simpa using hj.noTimeout }
    · exact hj.nodup.sublist (List.filter_sublist.map _)
    · obtain ⟨hg, hn⟩ := Job.mem_remove.mp hg
      have hr' : .partResolved g.number reply' ∈ h := by simpa [hn] using hr
      exact hj.unresolved g hg reply' hr'
    · obtain ⟨r, hr, hrn⟩ := hj.sent g (Job.mem_remove.mp hg).1 hs
      exact ⟨r, List.mem_cons_of_mem _ hr, hrn⟩
    · by_cases hi : i = f.number
      · exact ⟨reply, by simp [hi]⟩
      · obtain ⟨reply', hr⟩ := hj.resolved i h1 h2 fun g hg hn =>
          h3 g (Job.mem_remove.mpr ⟨hg, fun hgn => hi (hn.symm.trans hgn)⟩) hn
        exact ⟨reply', List.mem_cons_of_mem _ hr⟩
    · rcases List.mem_cons.mp hi with hi | hi
      · cases hi
        exact List.mem_cons_of_mem _ hbegun
      · exact List.mem_cons_of_mem _ (hj.resolved_begun i reply' hi)
  · intro headers hr
    exact hj.sent f hmem (hreply headers hr)

end Parts

/-! ## One lemma for each piece of the worker -/

section Pieces

variable {q : ManagedMultipartUploadRequest} {w : Worker} {job : Job}

theorem inv_failWithAbort {id : UploadId} {failure : ManagedUploadFailure}
    (hq : w.request = q) (hlaw : Lib.Justified (Lawful q) w.history)
    (hcreated : .createReturned (.ok id) ∈ w.history)
    (hnoAbort : ∀ a, .abortIssued a ∉ w.history)
    (hnoSuccess : ∀ output, .completeReturned (.ok output) ∉ w.history)
    (hsettled : Settled w.history ∨ .settleTimedOut ∈ w.history)
    (horiginal : originalFailure w.history = some failure.primary)
    (hquiesced : failure.quiesceFailure = none → .settleTimedOut ∉ w.history) :
    Inv q (w.failWithAbort id failure) := by
  refine ⟨hq,
    ⟨⟨⟨id, hcreated⟩, hcreated, hnoAbort, hnoSuccess, hsettled⟩, hlaw⟩, ?_⟩
  refine
    { created := List.mem_cons_of_mem _ hcreated
      issued := ⟨_, List.mem_cons_self .., rfl⟩
      noSuccess := fun output ho => hnoSuccess output (by simpa using ho)
      original := originalFailure_cons_some horiginal
      quiesced := fun hnone ht => hquiesced hnone (by simpa using ht) }

theorem inv_settle {primary : S3Error} (hq : w.request = q)
    (hlaw : Lib.Justified (Lawful q) w.history) (hj : JobInv q job w.history)
    (horiginal : originalFailure w.history = some primary) :
    Inv q (w.settle job primary) := by
  unfold Worker.settle
  split
  · next hempty =>
      exact inv_failWithAbort hq hlaw hj.created hj.noAbort
        (fun o => hj.noReturn _)
        (Or.inl (hj.settled (List.isEmpty_iff.mp hempty))) horiginal fun _ =>
          hj.noTimeout
  · exact ⟨hq, hlaw, hj, horiginal⟩

/-- Two strictly ascending lists with the same numbers are the same list. -/
theorem numbers_eq_range {parts : List CompletedPart} {n : Nat}
    (hsorted : Lib.KeySorted CompletedPart.number parts)
    (hmem : ∀ i, (∃ p ∈ parts, p.number = i) ↔ 1 ≤ i ∧ i ≤ n) :
    parts.map CompletedPart.number = (List.range n).map (· + 1) := by
  have hleft :
      Lib.KeySorted (id : Nat → Nat) (parts.map CompletedPart.number) :=
    List.pairwise_map.mpr hsorted
  have hright : Lib.KeySorted (id : Nat → Nat) ((List.range n).map (· + 1)) :=
    List.pairwise_map.mpr (List.pairwise_lt_range.imp fun h => by simpa using h)
  refine hleft.eq_of_perm hright ?_
  rw [List.perm_ext_iff_of_nodup (hleft.imp fun h => ne_of_lt h)
    (hright.imp fun h => ne_of_lt h)]
  intro i
  rw [List.mem_map, hmem, List.mem_map]
  constructor
  · rintro ⟨h1, h2⟩
    exact ⟨i - 1, List.mem_range.mpr (by omega), by omega⟩
  · rintro ⟨j, hj, rfl⟩
    have := List.mem_range.mp hj
    omega

/-- With every part pushed and none in flight, the recorded parts are all
parts. -/
theorem Recorded.uploaded {h : List Event} (hj : JobInv q job h)
    (hr : Recorded job h) (hempty : job.pending = [])
    (hall : job.partCount < job.nextPart) :
    Uploaded q job.upload h := by
  have hnext : job.nextPart = job.partCount + 1 := by
    have := hj.next_le
    omega
  refine ⟨job.context.source, job.partCount, hj.source, hj.count, ?_,
    fun i => ?_, hr.only⟩
  · refine numbers_eq_range job.upload.ascending fun i => ⟨?_, ?_⟩
    · rintro ⟨p, hp, rfl⟩
      obtain ⟨reply, hreply, -⟩ := hr.only p hp
      have := (hj.pushed _).mp
        (hj.begun_pushed _ (hj.resolved_begun _ _ hreply))
      omega
    · rintro ⟨h1, h2⟩
      obtain ⟨reply, hreply⟩ := hj.resolved i h1 (by omega) (by simp [hempty])
      obtain ⟨p, hp, hres⟩ := hr.recorded i reply hreply
      exact ⟨p, hp, (partResult_ok hres).1⟩
  · rw [hj.pushed i]
    omega

theorem inv_startCompletion (hq : w.request = q)
    (hlaw : Lib.Justified (Lawful q) w.history) (hj : JobInv q job w.history)
    (hr : Recorded job w.history) (hempty : job.pending = [])
    (hall : job.partCount < job.nextPart) :
    Inv q (w.startCompletion job.context.uploadId job.upload) := by
  have hup := hr.uploaded hj hempty hall
  have hparts : job.upload.completedParts ≠ [] := by
    obtain ⟨source, n, -, hcount, hnumbers, -⟩ := hup
    have hk : 0 < q.options.partSize :=
      lt_of_lt_of_le (by decide) q.options.partSize_ge
    have hpos := (PreparedMultipartSource.partCount_ok hk hcount).1
    intro hnil
    rw [hnil] at hnumbers
    have := congrArg List.length hnumbers
    simp at this
    omega
  unfold Worker.startCompletion
  rw [CompleteMultipartUploadRequest.new_of_upload job.upload hparts]
  have huploaded : Lawful q (.partsUploaded job.upload) w.history :=
    ⟨hj.isOpenHistory, hj.settled hempty, hup⟩
  refine ⟨hq, ⟨⟨job.upload, w.history, rfl, rfl, ?_⟩, huploaded, hlaw⟩, ?_⟩
  · rw [hr.id]
    exact hj.created
  refine
    { created := by simpa using hj.created
      issued := ⟨_, List.mem_cons_self ..⟩
      sent := ?_
      noReturn := fun r hr' => hj.noReturn r (by simpa using hr')
      noAbort := fun a ha => hj.noAbort a (by simpa using ha)
      noFailure := ?_
      settled := fun i hi => ?_
      noTimeout := by simpa using hj.noTimeout }
  · have hno : .completeSent ∉ w.history :=
      fun hs => Bool.false_ne_true (hj.isOpen _ hs)
    simpa using hno
  · simp only [Worker.goto_history, Worker.log_history]
    rw [originalFailure_cons_none rfl, originalFailure_cons_none rfl]
    exact hr.noFailure
  · obtain ⟨reply, hreply⟩ := hj.settled hempty i (by simpa using hi)
    exact ⟨reply, by simpa using hreply⟩

theorem JobInv.pushMany {h : List Event} (hj : JobInv q job h)
    (hr : Recorded job h) (hlaw : Lib.Justified (Lawful q) h) :
    ∀ k, job.nextPart + k ≤ job.partCount + 1 →
      JobInv q { job with
          nextPart := job.nextPart + k
          pending := job.pending ++ (List.range' job.nextPart k).map fun i =>
            ⟨i, .unpolled⟩ }
        ((List.range' job.nextPart k).reverse.map Event.partPushed ++ h) ∧
      Recorded job
        ((List.range' job.nextPart k).reverse.map Event.partPushed ++ h) ∧
      Lib.Justified (Lawful q)
        ((List.range' job.nextPart k).reverse.map Event.partPushed ++ h)
  | 0, _ => by simpa using ⟨hj, hr, hlaw⟩
  | k + 1, hle => by
      obtain ⟨hj', hr', hlaw'⟩ := JobInv.pushMany hj hr hlaw k (by omega)
      obtain ⟨hpush, hlawful⟩ := hj'.push (by simp only; omega)
      have hrange : List.range' job.nextPart (k + 1) =
          List.range' job.nextPart k ++ [job.nextPart + k] := by
        rw [List.range'_concat]
        simp
      rw [hrange, List.reverse_append, List.map_append, List.map_append]
      refine ⟨?_, ?_, ?_⟩
      · simpa [Nat.add_assoc] using hpush
      · refine ⟨hr'.id, ?_, ?_, ?_⟩
        · exact (originalFailure_cons_none rfl).trans hr'.noFailure
        · intro i reply hi
          exact hr'.recorded i reply (by simpa using hi)
        · intro p hp
          obtain ⟨reply, hreply, hres⟩ := hr'.only p hp
          exact ⟨reply, List.mem_cons_of_mem _ hreply, hres⟩
      · exact ⟨hlawful, hlaw'⟩

theorem inv_schedule (hq : w.request = q)
    (hlaw : Lib.Justified (Lawful q) w.history) (hj : JobInv q job w.history)
    (hr : Recorded job w.history) : Inv q (w.schedule job) := by
  obtain ⟨k, hrefilled, hpushed, hle, hstop⟩ :=
    job.refilled_spec w.request.options.concurrency hj.next_le
  obtain ⟨hj', hr', hlaw'⟩ := hj.pushMany hr hlaw k hle
  unfold Worker.schedule
  simp only [hrefilled, hpushed]
  split
  · next hempty =>
      have hnil := List.isEmpty_iff.mp hempty
      have hpending : job.pending = [] := (List.append_eq_nil_iff.mp hnil).1
      have hk : k = 0 := by
        have := congrArg List.length (List.append_eq_nil_iff.mp hnil).2
        simpa using this
      have hpos := w.request.options.concurrency_pos
      rw [hpending] at hstop
      have hall : job.partCount < job.nextPart + k := by
        simp only [List.length_nil] at hstop
        omega
      exact @inv_startCompletion q _
        { job with
          nextPart := job.nextPart + k
          pending := job.pending ++ (List.range' job.nextPart k).map fun i =>
            ⟨i, .unpolled⟩ }
        hq hlaw' hj' ⟨hr'.id, hr'.noFailure, hr'.recorded, hr'.only⟩ hnil hall
  · next hne =>
      exact ⟨hq, hlaw', hj', ⟨hr'.id, hr'.noFailure, hr'.recorded, hr'.only⟩,
        by simpa using hne⟩

/-- A result is recorded, or the rest is settled; recording never fails. -/
theorem inv_takeResult {number : Nat} {f : InFlight} {reply : PartReply}
    (hq : w.request = q) (hlaw : Lib.Justified (Lawful q) w.history)
    (hj : JobInv q job w.history) (hr : Recorded job w.history)
    (hf : job.find number = some f) (hs : f.stage ≠ .unpolled)
    (hreply : ∀ headers, reply = .response headers → f.stage = .sent) :
    Inv q ((w.log (.partResolved number reply)).takeResult (job.remove number)
      (partResult number reply)) := by
  obtain ⟨hmem, rfl⟩ := Job.find_some hf
  obtain ⟨hj', hlawful⟩ := hj.resolve hf hs hreply
  have hlaw' :
      Lib.Justified (Lawful q) (.partResolved f.number reply :: w.history) :=
    ⟨hlawful, hlaw⟩
  unfold Worker.takeResult
  cases hres : partResult f.number reply with
  | error primary =>
      refine inv_settle hq hlaw' hj' ?_
      rw [Worker.log_history, originalFailure_cons_first hr.noFailure]
      simp [failureOf, hres]
  | ok part =>
      have hnumber : part.number = f.number := (partResult_ok hres).1
      simp only
      cases hrec : (job.remove f.number).upload.recordPart part with
      | error e =>
          -- the number would have resolved before, and it is still in flight
          obtain ⟨-, p, hp, hpn⟩ := MultipartUpload.recordPart_error hrec
          obtain ⟨reply', hreply', -⟩ := hr.only p hp
          exact absurd (hpn.trans hnumber ▸ hreply')
            (hj.unresolved f hmem reply')
      | ok upload =>
          obtain ⟨-, hid, hperm, -⟩ := MultipartUpload.recordPart_ok hrec
          have hrecorded :
              Recorded { job.remove f.number with upload := upload }
              (.partResolved f.number reply :: w.history) := by
            refine ⟨hid.trans hr.id, ?_, ?_, ?_⟩
            · rw [originalFailure_cons_first hr.noFailure]
              simp [failureOf, hres]
            · intro i reply' hi
              rcases List.mem_cons.mp hi with hi | hi
              · cases hi
                exact ⟨part, hperm.symm.subset (List.mem_cons_self ..), hres⟩
              · obtain ⟨p, hp, hpres⟩ := hr.recorded i reply' hi
                exact ⟨p, hperm.symm.subset (List.mem_cons_of_mem _ hp), hpres⟩
            · intro p hp
              rcases List.mem_cons.mp (hperm.subset hp) with rfl | hp
              · exact ⟨reply, by simp [hnumber], hnumber ▸ hres⟩
              · obtain ⟨reply', hreply', hpres⟩ := hr.only p hp
                exact ⟨reply', List.mem_cons_of_mem _ hreply', hpres⟩
          exact inv_schedule hq hlaw'
            { hj' with } hrecorded

theorem Recorded.cons {h : List Event} {e : Event} (hr : Recorded job h)
    (he : failureOf e = none)
    (hresolve : ∀ i reply, .partResolved i reply ≠ e) :
    Recorded job (e :: h) := by
  refine ⟨hr.id, (originalFailure_cons_none he).trans hr.noFailure, ?_, ?_⟩
  · intro i reply hi
    exact hr.recorded i reply (by simpa [hresolve i reply] using hi)
  · intro p hp
    obtain ⟨reply, hreply, hres⟩ := hr.only p hp
    exact ⟨reply, List.mem_cons_of_mem _ hreply, hres⟩

theorem Recorded.setStage {h : List Event} (hr : Recorded job h) (number : Nat)
    (stage : PartStage) :
    Recorded (job.setStage number stage) h :=
  ⟨hr.id, hr.noFailure, hr.recorded, hr.only⟩

theorem CompletionInv.cons {id : UploadId} {stage stage' : CompletionStage}
    {h : List Event} {e : Event} (hc : CompletionInv id stage h)
    (he : e = .cancelled ∨ e = .completeSent)
    (hsent : .completeSent ∈ e :: h ↔ stage' = .sent) :
    CompletionInv id stage' (e :: h) := by
  have hold : ∀ x : Event, x ≠ .cancelled → x ≠ .completeSent → x ∈ e :: h →
      x ∈ h := by
    intro x hcancelled hcompleteSent hx
    refine (List.mem_cons.mp hx).resolve_left ?_
    rintro rfl
    exact he.elim hcancelled hcompleteSent
  have hnone : failureOf e = none := by
    rcases he with rfl | rfl <;> rfl
  obtain ⟨r, hr⟩ := hc.issued
  refine
    { created := List.mem_cons_of_mem _ hc.created
      issued := ⟨r, List.mem_cons_of_mem _ hr⟩
      sent := hsent
      noReturn := fun r hr => hc.noReturn r (hold _ (by simp) (by simp) hr)
      noAbort := fun a ha => hc.noAbort a (hold _ (by simp) (by simp) ha)
      noFailure := (originalFailure_cons_none hnone).trans hc.noFailure
      settled := fun i hi => ?_
      noTimeout := fun ht => hc.noTimeout (hold _ (by simp) (by simp) ht) }
  obtain ⟨reply, hreply⟩ := hc.settled i (hold _ (by simp) (by simp) hi)
  exact ⟨reply, List.mem_cons_of_mem _ hreply⟩

theorem CompletionInv.cons_cancelled {id : UploadId} {stage : CompletionStage}
    {h : List Event} (hc : CompletionInv id stage h) :
    CompletionInv id stage (.cancelled :: h) :=
  hc.cons (Or.inl rfl) (by simpa using hc.sent)

theorem CompletionInv.failWithAbort {id : UploadId} {stage : CompletionStage}
    {e : Event} {primary : S3Error} (hc : CompletionInv id stage w.history)
    (hq : w.request = q) (hlaw : Lib.Justified (Lawful q) (e :: w.history))
    (he : failureOf e = some primary) :
    Inv q ((w.log e).failWithAbort id (ManagedUploadFailure.new primary)) := by
  have hold : ∀ x : Event, failureOf x = none → x ∈ e :: w.history →
      x ∈ w.history := by
    intro x hnone hx
    refine (List.mem_cons.mp hx).resolve_left ?_
    rintro rfl
    rw [hnone] at he
    cases he
  refine inv_failWithAbort hq hlaw (List.mem_cons_of_mem _ hc.created)
    (fun a ha => hc.noAbort a (hold _ rfl ha))
      (fun o ho => hc.noReturn _ (hold _ rfl ho))
    (Or.inl fun i hi => ?_) ((originalFailure_cons_first hc.noFailure).trans he)
    fun _ ht => hc.noTimeout (hold _ rfl ht)
  obtain ⟨reply, hreply⟩ := hc.settled i (hold _ rfl hi)
  exact ⟨reply, List.mem_cons_of_mem _ hreply⟩

theorem CompletionInv.polled {id : UploadId} {stage : CompletionStage}
    {h : List Event} (hc : CompletionInv id stage h) :
    PhaseInv q
      (.completePolled id (if stage = .unpolled then .preparing else stage))
        h := by
  by_cases hs : stage = .unpolled
  · rw [if_pos hs]
    refine ⟨{ hc with sent := ?_ }, by simp⟩
    simpa [hs] using hc.sent
  · rw [if_neg hs]
    exact ⟨hc, hs⟩

theorem PhaseInv.jobInv {k : Job → Phase} {h : List Event}
    (hp : PhaseInv q (k job) h) (hk : Polling k) : JobInv q job h := by
  cases hk with
  | uploading => exact hp.1
  | quiescing primary => exact hp.1

theorem AbortInv.cons {id : UploadId} {failure : ManagedUploadFailure}
    {h : List Event} {e : Event} (ha : AbortInv id failure h)
    (hsuccess : ∀ output, .completeReturned (.ok output) ≠ e)
    (htimeout : .settleTimedOut ≠ e) : AbortInv id failure (e :: h) := by
  obtain ⟨a, hissued, hid⟩ := ha.issued
  exact
    { created := List.mem_cons_of_mem _ ha.created
      issued := ⟨a, List.mem_cons_of_mem _ hissued, hid⟩
      noSuccess := fun o ho => ha.noSuccess o (by simpa [hsuccess o] using ho)
      original := originalFailure_cons_some ha.original
      quiesced := fun hn ht => ha.quiesced hn (by simpa [htimeout] using ht) }

/-- Setting the flag changes nothing the invariant says about the phase. -/
theorem PhaseInv.cons_cancelled {phase : Phase} {h : List Event}
    (hp : PhaseInv q phase h) :
    PhaseInv q phase (.cancelled :: h) := by
  cases phase with
  | preparing => exact List.forall_mem_cons.mpr ⟨rfl, hp⟩
  | counted source n =>
      obtain ⟨hs, hn, hall⟩ := hp
      exact ⟨List.mem_cons_of_mem _ hs, hn,
        List.forall_mem_cons.mpr ⟨Or.inl rfl, hall⟩⟩
  | creating source n =>
      obtain ⟨hs, hn, ⟨r, hr⟩, hall⟩ := hp
      exact ⟨List.mem_cons_of_mem _ hs, hn, ⟨r, List.mem_cons_of_mem _ hr⟩,
        List.forall_mem_cons.mpr ⟨Or.inl rfl, hall⟩⟩
  | uploading job =>
      obtain ⟨hj, hr, hne⟩ := hp
      exact ⟨hj.cons_inert rfl, hr.cons rfl (by simp), hne⟩
  | quiescing job primary =>
      obtain ⟨hj, ho⟩ := hp
      exact ⟨hj.cons_inert rfl, originalFailure_cons_some ho⟩
  | completing id stage => exact CompletionInv.cons_cancelled hp
  | completePolled id stage => exact ⟨CompletionInv.cons_cancelled hp.1, hp.2⟩
  | aborting id failure => exact AbortInv.cons hp (by simp) (by simp)
  | panicked => exact hp
  | finished result =>
      cases hp with
      | early e hres hnone hearly =>
          exact .early e hres (by simpa using hnone)
            (List.forall_mem_cons.mpr ⟨rfl, hearly⟩)
      | completed id output hres hc hret hno =>
          exact .completed id output hres (List.mem_cons_of_mem _ hc)
            (List.mem_cons_of_mem _ hret)
            (by simpa using hno)
      | aborted id failure answer hres hinv hans =>
          exact .aborted id failure answer hres (hinv.cons (by simp) (by simp))
            (List.mem_cons_of_mem _ hans)

theorem inv_countParts {source : PreparedMultipartSource} (hq : w.request = q)
    (hlaw : Lib.Justified (Lawful q) w.history)
    (hp : ∀ e ∈ w.history, e = .cancelled)
    (hsource : ∀ buffer, q.source = .bytes buffer → source = .bytes buffer) :
    Inv q (w.countParts source) := by
  have hlaw' : Lib.Justified (Lawful q) (.prepared source :: w.history) :=
    ⟨⟨hp, hsource⟩, hlaw⟩
  unfold Worker.countParts
  simp only [Worker.log_request]
  cases hcount : source.partCount w.request.options.partSize with
  | error e =>
      refine ⟨hq, hlaw', .early e rfl ?_ ?_⟩
      · intro id hid
        rcases List.mem_cons.mp hid with h | h
        · cases h
        · cases hp _ h
      · refine List.forall_mem_cons.mpr ⟨rfl, fun x hx => ?_⟩
        rw [hp x hx]
        rfl
  | ok n =>
      refine ⟨hq, hlaw', List.mem_cons_self .., hq ▸ hcount, ?_⟩
      exact List.forall_mem_cons.mpr ⟨Or.inr rfl, fun x hx => Or.inl (hp x hx)⟩

theorem inv_early_error {e : S3Error} (hq : w.request = q)
    (hlaw : Lib.Justified (Lawful q) w.history)
    (hp : ∀ x ∈ w.history, x = .cancelled ∨ ∃ s, x = .prepared s) :
    Inv q (w.finish (.error e)) := by
  refine ⟨hq, hlaw, .early e rfl ?_ ?_⟩
  · intro id hid
    rcases hp _ hid with h | ⟨s, h⟩ <;> cases h
  · intro x hx
    rcases hp x hx with rfl | ⟨s, rfl⟩ <;> rfl

end Pieces

/-! ## Steps and runs -/

section Runs

variable {q : ManagedMultipartUploadRequest} {sha : Sha256} {w w' : Worker}

theorem inv_created {source : PreparedMultipartSource} {n : Nat} {id : UploadId}
    (hq : w.request = q) (hlaw : Lib.Justified (Lawful q) w.history)
    (hp : PhaseInv q (.creating source n) w.history) :
    Inv q ((w.log (.createReturned (.ok id))).schedule
      (Job.new (w.partContext source id) n)) := by
  obtain ⟨hs, hn, hissued, hall⟩ := hp
  have hold : ∀ e ∈ w.history, e.isEarly = true ∧ failureOf e = none ∧
      ∀ r, e ≠ .createReturned r := by
    intro e he
    rcases hall e he with rfl | rfl | ⟨r, rfl⟩ <;>
      simp [Event.isEarly, failureOf]
  have hno : ∀ e ∈ Event.createReturned (.ok id) :: w.history,
      e.isEarly = true := by
    refine List.forall_mem_cons.mpr ⟨rfl, fun e he => (hold e he).1⟩
  refine inv_schedule hq ?_ ?_ ?_
  · refine ⟨⟨hissued, fun e he => ?_⟩, hlaw⟩
    rcases hall e he with h | h | h
    · exact Or.inl h
    · exact Or.inr (Or.inl ⟨_, h⟩)
    · exact Or.inr (Or.inr h)
  · refine
      { size := by simp [Job.new, Worker.partContext, hq]
        source := List.mem_cons_of_mem _ hs
        unique := fun s hs' => ?_
        count := hn
        created := List.mem_cons_self ..
        isOpen := fun e he => ?_
        next_pos := le_rfl
        next_le := by simp [Job.new]
        pushed := fun i => ?_
        nodup := List.nodup_nil
        known := by simp [Job.new]
        unresolved := by simp [Job.new]
        begun := by simp [Job.new]
        sent := by simp [Job.new]
        resolved := fun i h1 h2 _ => ?_
        begun_pushed := fun i hi => Bool.noConfusion (hno _ hi)
        resolved_begun := fun i reply hi => Bool.noConfusion (hno _ hi)
        noTimeout := fun ht => Bool.noConfusion (hno _ ht) }
    · rcases List.mem_cons.mp hs' with h | h
      · cases h
      · rcases hall _ h with h | h | ⟨r, h⟩
        · cases h
        · cases h
          rfl
        · cases h
    · have := hno e he
      cases e <;> first | rfl | cases this
    · constructor
      · exact fun hi => Bool.noConfusion (hno _ hi)
      · rintro ⟨h1, h2⟩
        simp only [Job.new] at h2
        omega
    · simp only [Job.new] at h2
      omega
  · refine ⟨rfl, ?_, fun i reply hi => Bool.noConfusion (hno _ hi),
      by simp [Job.new, MultipartUpload.new]⟩
    rw [Worker.log_history, originalFailure_cons_none rfl]
    exact originalFailure_none fun e he => (hold e he).2.1

/-- **One step keeps the invariant.** -/
theorem inv_step {label : Label} (h : w.step sha label = some w')
    (hi : Inv q w) : Inv q w' := by
  obtain ⟨hq, hlaw, hp⟩ := hi
  cases Worker.turn_of_step h with
  | cancels => exact ⟨hq, ⟨trivial, hlaw⟩, hp.cons_cancelled⟩
  | expires => exact ⟨hq, hlaw, hp⟩
  | counts hphase hsource =>
      rw [hphase] at hp
      rw [hq] at hsource
      exact inv_countParts hq hlaw hp hsource
  | failsToPrepare hphase =>
      rw [hphase] at hp
      exact inv_early_error hq hlaw fun x hx => Or.inl (hp x hx)
  | waitsToPrepare => exact ⟨hq, hlaw, hp⟩
  | refuses hphase =>
      rw [hphase] at hp
      exact inv_early_error hq hlaw fun x hx => (hp.2.2 x hx).imp_right fun h =>
        ⟨_, h⟩
  | creates hphase =>
      rw [hphase] at hp
      obtain ⟨hs, hn, hall⟩ := hp
      refine ⟨hq, ⟨fun x hx => (hall x hx).imp_right fun h => ⟨_, h⟩, hlaw⟩,
        List.mem_cons_of_mem _ hs, hn, ⟨_, List.mem_cons_self ..⟩, ?_⟩
      refine List.forall_mem_cons.mpr ⟨Or.inr (Or.inr ⟨_, rfl⟩), fun x hx => ?_⟩
      exact (hall x hx).imp_right Or.inl
  | created hphase =>
      rw [hphase] at hp
      exact inv_created hq hlaw hp
  | failsToCreate hphase =>
      rw [hphase] at hp
      obtain ⟨-, -, hissued, hall⟩ := hp
      refine ⟨hq, ⟨⟨hissued, fun x hx => ?_⟩, hlaw⟩, .early _ rfl ?_ ?_⟩
      · exact (hall x hx).imp_right (Or.imp_left fun h => ⟨_, h⟩)
      · intro id hid
        rcases List.mem_cons.mp hid with h | h
        · cases h
        · rcases hall _ h with h | h | ⟨r, h⟩ <;> cases h
      · refine List.forall_mem_cons.mpr ⟨rfl, fun x hx => ?_⟩
        rcases hall x hx with rfl | rfl | ⟨r, rfl⟩ <;> rfl
  | begins hk hphase hf hstage =>
      rw [hphase] at hp
      cases hk with
      | uploading =>
          obtain ⟨hj, hr, hne⟩ := hp
          refine ⟨hq, ⟨hj.lawful_begin hf hstage, hlaw⟩, hj.advance hf .begin,
            (hr.cons rfl (by simp)).setStage _ _, ?_⟩
          simpa [Job.setStage] using hne
      | quiescing primary =>
          obtain ⟨hj, ho⟩ := hp
          exact ⟨hq, ⟨hj.lawful_begin hf hstage, hlaw⟩, hj.advance hf .begin,
            originalFailure_cons_some ho⟩
  | panics hk hphase hf _ hread =>
      -- the part is inside the source
      rw [hphase] at hp
      have hj := hp.jobInv hk
      obtain ⟨hmem, rfl⟩ := Job.find_some hf
      rw [hj.inside hmem] at hread
      cases hread
  | sends hk hphase hf hstage hprep =>
      rw [hphase] at hp
      obtain ⟨hadv, hlawful⟩ := (hp.jobInv hk).lawful_send hf hstage hprep
      cases hk with
      | uploading =>
          obtain ⟨hj, hr, hne⟩ := hp
          refine ⟨hq, ⟨hlawful, hlaw⟩, hj.advance hf hadv,
            (hr.cons rfl (by simp)).setStage _ _, ?_⟩
          simpa [Job.setStage] using hne
      | quiescing primary =>
          obtain ⟨hj, ho⟩ := hp
          exact ⟨hq, ⟨hlawful, hlaw⟩, hj.advance hf hadv,
            originalFailure_cons_some ho⟩
  | takes hphase hf hstage hreply =>
      rw [hphase] at hp
      obtain ⟨hj, hr, -⟩ := hp
      exact inv_takeResult hq hlaw hj hr hf hstage hreply
  | settles hphase hf hstage hreply =>
      rw [hphase] at hp
      obtain ⟨hj, ho⟩ := hp
      obtain ⟨hj', hlawful⟩ := hj.resolve hf hstage hreply
      exact inv_settle hq ⟨hlawful, hlaw⟩ hj' (originalFailure_cons_some ho)
  | losesScheduler hphase hempty =>
      -- there is always something in flight
      rw [hphase] at hp
      exact absurd hempty hp.2.2
  | observesCancel hphase =>
      rw [hphase] at hp
      obtain ⟨hj, hr, -⟩ := hp
      exact inv_settle hq ⟨trivial, hlaw⟩ (hj.cons_inert rfl)
        (originalFailure_cons_first hr.noFailure)
  | observesDeadline hphase =>
      rw [hphase] at hp
      obtain ⟨hj, hr, -⟩ := hp
      exact inv_settle hq ⟨trivial, hlaw⟩ (hj.cons_inert rfl)
        (originalFailure_cons_first hr.noFailure)
  | timesOut hphase =>
      rw [hphase] at hp
      obtain ⟨hj, ho⟩ := hp
      exact inv_failWithAbort hq ⟨hj.isOpenHistory, hlaw⟩
        (List.mem_cons_of_mem _ hj.created)
        (by simpa using hj.noAbort)
          (by simpa using fun o => hj.noReturn (.ok o))
        (Or.inr (List.mem_cons_self ..))
          (originalFailure_cons_some ho) fun hn => nomatch hn
  | waitsToComplete hphase =>
      rw [hphase] at hp
      exact ⟨hq, hlaw, hp.polled⟩
  | sendsCompletion hphase =>
      rw [hphase] at hp
      have hnot : .completeSent ∉ w.history := by
        rw [hp.sent]
        simp
      exact ⟨hq, ⟨⟨hp.issued, hnot⟩, hlaw⟩, hp.cons (Or.inr rfl) (by simp),
        by simp⟩
  | completes hphase =>
      rw [hphase] at hp
      exact ⟨hq, ⟨⟨hp.issued, hp.noReturn⟩, hlaw⟩, .completed _ _ rfl
        (List.mem_cons_of_mem _ hp.created) (List.mem_cons_self ..)
          (by simpa using hp.noAbort)⟩
  | failsToComplete hphase =>
      rw [hphase] at hp
      exact hp.failWithAbort hq ⟨⟨hp.issued, hp.noReturn⟩, hlaw⟩ rfl
  | givesUp hphase =>
      rw [hphase] at hp
      exact hp.1.failWithAbort hq ⟨trivial, hlaw⟩ rfl
  | goesOn hphase =>
      rw [hphase] at hp
      exact ⟨hq, hlaw, hp.1⟩
  | aborts hphase =>
      rw [hphase] at hp
      obtain ⟨a, ha, -⟩ := hp.issued
      exact ⟨hq, ⟨⟨a, ha⟩, hlaw⟩,
        .aborted _ _ _ rfl (hp.cons (by simp) (by simp))
        (List.mem_cons_self ..)⟩

theorem inv_init : Inv q (Worker.init q) :=
  ⟨rfl, trivial, by simp [Worker.init, PhaseInv]⟩

/-- **The invariant of every run.** -/
theorem inv_run {labels : List Label}
    (h : Lib.exec (Worker.step sha) (Worker.init q) labels = some w) :
    Inv q w :=
  Lib.exec_invariant inv_step h inv_init

end Runs

end S3Wire
