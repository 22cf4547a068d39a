/-
# `S3Wire.Client.Request.Exits` — what the error of an operation says of its attempts

An error that ends an operation is to carry the number of attempts and, once one
was made, the reason why no other followed.  The exits after a failed attempt
attach both; the ones through `?` — the two looks at the deadline, signing, a
corrected authority that makes no target — hand on an error as it is, which is
right only while nothing was sent.  `Counted` is the condition on a step that
says so, and `sendSigned_accounts_iff` that it is exact.
-/
import S3Wire.Client.Request.Attempts

namespace S3Wire

/-! ## Errors of the client's own -/

namespace S3Error

/-- The error says how many attempts were made, and why there was no other. -/
def Accounts (e : S3Error) (attempts : Nat) : Prop :=
  e.attempts = attempts ∧ (1 ≤ attempts → e.retryStopReason.isSome = true)

/-- An error that no retry context was attached to. -/
def Bare (e : S3Error) : Prop := e.attempts = 0 ∧ e.retryStopReason = none

theorem Bare.accounts_iff {e : S3Error} (h : e.Bare) {n : Nat} : e.Accounts n ↔
    n = 0 := by
  constructor
  · rintro ⟨hattempts, -⟩
    exact hattempts.symm.trans h.1
  · rintro rfl
    exact ⟨h.1, fun hpos => absurd hpos (by decide)⟩

theorem accounts_withRetryContext (e : S3Error) (n : Nat)
    (reason : RetryStopReason) :
    (e.withRetryContext n reason).Accounts n := ⟨rfl, fun _ => rfl⟩

theorem bare_configuration (message : Str) : (configuration message).Bare :=
  ⟨rfl, rfl⟩

theorem bare_operationTimeout : operationTimeout.Bare := ⟨rfl, rfl⟩

end S3Error

section Bare

open Lib S3Error

theorem fails_headerValue (value : Str) (message : String) :
    Fails Bare (headerValue value message) := by
  rw [headerValue]
  split
  · exact Fails.ok _
  · exact Fails.error (bare_configuration _)

theorem fails_unsignedHeaders (input : SignedRequestInput) :
    Fails Bare (unsignedHeaders input) := by
  refine Fails.bind (fails_headerValue _ _) fun host => ?_
  refine Fails.bind (fails_headerValue _ _) fun payload => ?_
  dsimp only
  split
  · exact Fails.ok _
  · exact Fails.ok _

theorem fails_ownedHeaders (headers : HeaderMap) :
    Fails Bare (ownedHeaders headers) := by
  refine Fails.mapM (fun entry => ?_) _
  split
  · exact Fails.ok _
  · exact Fails.error (bare_configuration _)

theorem fails_insertSignature (headers : HeaderMap)
    (signed : HeaderSigningOutput) :
    Fails Bare (insertSignature headers signed) := by
  refine Fails.bind (fails_headerValue _ _) fun authorization => ?_
  refine Fails.bind (fails_headerValue _ _) fun date => ?_
  dsimp only
  split
  · exact Fails.bind (fails_headerValue _ _) fun token => Fails.ok _
  · exact Fails.ok _

theorem fails_signedHeaders (crypto : Crypto) (env : SigningEnv)
    (input : SignedRequestInput) :
    Fails (fun e => env.credentials = .error e ∨ e.Bare)
      (signedHeaders crypto env input) := by
  have hbare : ∀ {α : Type} {x : Except S3Error α}, Fails Bare x →
      Fails (fun e => env.credentials = .error e ∨ e.Bare) x :=
        fun hx e he => Or.inr (hx e he)
  refine Fails.bind (hbare (fails_unsignedHeaders input)) fun headers => ?_
  refine Fails.bind (fun e he => Or.inl he) fun credentials => ?_
  split
  · exact hbare (Fails.error ⟨rfl, rfl⟩)
  · refine Fails.bind (hbare (fails_ownedHeaders headers)) fun owned => ?_
    split
    · exact hbare (Fails.error ⟨rfl, rfl⟩)
    · exact hbare (fails_insertSignature _ _)

theorem fails_requestBody (body : PreparedBody)
    (opened : Option (List StreamEvent)) :
    Fails Bare (body.requestBody opened).1 := by
  obtain ⟨source, length, bounded, sha256⟩ := body
  cases source with
  | bytes buffer => exact Fails.ok _
  | fileSnapshot snapshot =>
      cases opened with
      | none => exact Fails.error ⟨rfl, rfl⟩
      | some items => exact Fails.ok _
  | oneShot stream =>
      cases stream with
      | none => exact Fails.error ⟨rfl, rfl⟩
      | some items => exact Fails.ok _

theorem fails_fromParts (grammar : UriGrammar)
    (scheme authority pathAndQuery : Str) :
    Fails Bare
      (EndpointUrl.fromParts grammar scheme authority pathAndQuery) := by
  rw [EndpointUrl.fromParts]
  split
  · exact Fails.ok _
  · exact Fails.error (bare_configuration _)

theorem fails_withQuery (grammar : UriGrammar) (url : EndpointUrl)
    (query : Str) :
    Fails Bare (url.withQuery grammar query) := by
  rw [EndpointUrl.withQuery]
  split
  · exact Fails.error (bare_configuration _)
  · exact fails_fromParts _ _ _ _

theorem fails_withAuthority (grammar : UriGrammar) (url : EndpointUrl)
    (authority : Str) :
    Fails Bare (url.withAuthority grammar authority) := by
  rw [EndpointUrl.withAuthority]
  split
  · exact Fails.error (bare_configuration _)
  split
  · exact Fails.error (bare_configuration _)
  · exact fails_fromParts _ _ _ _

theorem signedRequest_error {crypto : Crypto} {env : SigningEnv}
    {input : SignedRequestInput} {e : S3Error}
    (h : (signedRequest crypto env input).1 = .error e) :
    env.credentials = .error e ∨ e.Bare := by
  rw [signedRequest] at h
  split at h
  · next e' he' =>
      cases h
      exact fails_signedHeaders crypto env input e he'
  · split at h
    · cases h
    · next body hbody =>
        split at h
        · next left he' =>
            cases h
            exact Or.inr
              (fails_requestBody body env.opened e (congrArg Prod.fst he'))
        · cases h

end Bare

namespace SendState

section Exits

variable {client : S3Client} {call : SignedSend} {s s' : SendState}
  {label : SendLabel}

/-! ## The steps that keep count -/

/-- The step does not leave through `?` after a transmission; and an error of
the credential provider, which is handed on as it is, says by itself what it has
to say. -/
def Counted (client : S3Client) (call : SignedSend) (s : SendState) :
    SendLabel → Prop
  | .check wait => s.attemptsCompleted = 0 ∨ s.clock + wait < call.deadline
  | .sign _ none _ => s.attemptsCompleted = 0
  | .sign wait (some answer) beforeRemaining =>
      match (signedRequest client.crypto answer (s.signingInput client call)).1
          with
      | .ok _ =>
          s.attemptsCompleted = 0 ∨
            s.clock + wait + beforeRemaining < call.deadline
      | .error e =>
          (answer.credentials = .error e ∧ e.Accounts s.attemptsCompleted) ∨
            (answer.credentials ≠ .error e ∧ s.attemptsCompleted = 0)
  | .respond wait outcome env =>
      ¬ s.Strays client call (.respond wait outcome env)
  | _ => True

/-- An error that ended the operation accounts for what was sent. -/
def Accounted (s : SendState) : Prop :=
  ∀ e, s.phase = .finished (.error e) → e.Accounts (transmissions s.log).length

theorem counted_of_stays (h : s.Stays client call label) :
    Counted client call s label := by
  cases label with
  | check => exact h.elim
  | sign => exact h.elim
  | respond => exact h
  | collect => exact trivial
  | wake => exact h.elim

theorem counted_of_strays (h : s.Strays client call label) :
    ¬ Counted client call s label := by
  cases label with
  | respond => exact fun hcounted => hcounted h
  | check => exact h.elim
  | sign => exact h.elim
  | collect => exact h.elim
  | wake => exact h.elim

theorem Disciplined.transmissions_length (h : Disciplined client call s) :
    (transmissions s.log).length = s.attemptsCompleted := by
  obtain ⟨stage, hstands, hdiscipline⟩ := h
  rw [hdiscipline.transmissions_length]
  cases hstands with
  | fresh _ hattempts => exact hattempts.symm
  | corrected => rfl
  | scheduled => rfl
  | opened => rfl
  | done => rfl

theorem accounted_leave {e : S3Error} (hd : Disciplined client call s)
    (hlog : s'.log = s.log) (hphase : s'.phase = .finished (.error e)) :
    Accounted s' ↔ e.Accounts s.attemptsCompleted := by
  rw [Accounted, hlog, hd.transmissions_length]
  constructor
  · intro h
    exact h e hphase
  · intro h e' he'
    cases hphase.symm.trans he'
    exact h

theorem accounted_turn (h : Turn client call s label s')
    (hd : Disciplined client call s) :
    Accounted s' ↔ Accounted s ∧ Counted client call s label := by
  have hopen : ∀ {s : SendState}, (∀ e, s.phase ≠ .finished (.error e)) →
      Accounted s :=
    fun hphase e he => absurd he (hphase e)
  have hflight : ∀ {s : SendState}, s.phase.isInFlight = true →
      Accounted s := by
    intro s hphase e he
    rw [he] at hphase
    cases hphase
  have hwaiting : ∀ {s : SendState}, s.phase.isWaiting = true →
      Accounted s := by
    intro s hphase e he
    rw [he] at hphase
    cases hphase
  cases h with
  | checked hphase hclock =>
      exact iff_of_true (hwaiting rfl)
        ⟨hwaiting (congrArg SendPhase.isWaiting hphase), Or.inr hclock⟩
  | expired hphase hclock =>
      refine Iff.trans (accounted_leave hd rfl rfl) ?_
      rw [S3Error.bare_operationTimeout.accounts_iff,
        and_iff_right (hwaiting (congrArg SendPhase.isWaiting hphase))]
      exact (or_iff_left (Nat.not_lt.mpr hclock)).symm
  | timedOut hphase hclock =>
      refine Iff.trans (accounted_leave hd rfl rfl) ?_
      rw [S3Error.bare_operationTimeout.accounts_iff,
        and_iff_right (hwaiting (congrArg SendPhase.isWaiting hphase))]
      exact Iff.rfl
  | @refused wait beforeRemaining answer e body hphase hsigned =>
      refine Iff.trans (accounted_leave hd rfl rfl) ?_
      rw [and_iff_right (hwaiting (congrArg SendPhase.isWaiting hphase)),
        Counted, hsigned]
      dsimp only
      by_cases hprovider : answer.credentials = .error e
      · rw [and_iff_right hprovider, or_iff_left fun h => h.1 hprovider]
      · have hbare :=
          (signedRequest_error (congrArg Prod.fst hsigned)).resolve_left
            hprovider
        rw [hbare.accounts_iff, and_iff_right hprovider, or_iff_right fun h =>
          hprovider h.1]
  | late hphase hsigned hclock =>
      refine Iff.trans (accounted_leave hd rfl rfl) ?_
      rw [S3Error.bare_operationTimeout.accounts_iff,
        and_iff_right (hwaiting (congrArg SendPhase.isWaiting hphase)),
        Counted, hsigned]
      exact (or_iff_left (Nat.not_lt.mpr hclock)).symm
  | sent hphase hsigned hnow hclock =>
      refine iff_of_true (hflight rfl)
        ⟨hwaiting (congrArg SendPhase.isWaiting hphase), ?_⟩
      rw [Counted, hsigned]
      exact Or.inr (hnow ▸ hclock)
  | woke hphase =>
      exact iff_of_true (hwaiting rfl)
        ⟨hwaiting (congrArg SendPhase.isWaiting hphase), trivial⟩
  | succeeded hphase hstays =>
      exact iff_of_true (hopen nofun) ⟨hflight hphase, counted_of_stays hstays⟩
  | reading hphase hstays _ hnext =>
      exact iff_of_true (hflight hnext)
        ⟨hflight hphase, counted_of_stays hstays⟩
  | corrected hphase hstays =>
      exact iff_of_true (hwaiting rfl)
        ⟨hflight (congrArg SendPhase.isInFlight hphase),
          counted_of_stays hstays⟩
  | strayed hphase hstrays hcorrection htarget =>
      have hpos : s.attemptsCompleted ≠ 0 := by
        obtain ⟨stage, hstands, hdiscipline⟩ := hd
        obtain ⟨rfl, -⟩ :=
          hstands.of_inFlight (congrArg SendPhase.isInFlight hphase)
        exact Nat.one_le_iff_ne_zero.mp hdiscipline.opened_pos
      refine Iff.trans (accounted_leave hd rfl rfl) ?_
      rw [S3Error.Bare.accounts_iff (fails_withAuthority _ _ _ _ htarget)]
      exact iff_of_false hpos fun hcounted =>
        counted_of_strays hstrays hcounted.2
  | @stopped label clock error reason hphase hstays =>
      refine iff_of_true (fun e he => ?_)
        ⟨hflight hphase, counted_of_stays hstays⟩
      cases he
      have hsent := hd.transmissions_length
      exact hsent ▸ S3Error.accounts_withRetryContext error s.attemptsCompleted
        reason
  | scheduled hphase hstays =>
      exact iff_of_true (hwaiting rfl) ⟨hflight hphase, counted_of_stays hstays⟩

/-- **The error of an operation counts its attempts exactly when every step
keeps count.** -/
theorem sendSigned_accounts_iff {started : Instant} {labels : List SendLabel}
    {e : S3Error} (h : Reaches client call started labels s)
    (hfinished : s.phase = .finished (.error e)) :
    (observations s.log).countP (fun event => event.kind = .attemptStarted) =
      (transmissions s.log).length ∧
      ((e.attempts = (transmissions s.log).length ∧
          (1 ≤ (transmissions s.log).length →
            e.retryStopReason.isSome = true)) ↔
        Lib.Along (step client call) (Counted client call)
          (initial client call started) labels) := by
  have hstarts :
      (observations s.log).countP (fun event => event.kind = .attemptStarted) =
      (transmissions s.log).length := by
    obtain ⟨stage, -, hdiscipline⟩ := disciplined_of_reaches h
    rw [Discipline.countP_observations, hdiscipline.starts_eq,
      hdiscipline.transmissions_length]
  have haccounted : Accounted s ↔ e.Accounts (transmissions s.log).length := by
    constructor
    · intro hs
      exact hs e hfinished
    · intro he e' he'
      cases hfinished.symm.trans he'
      exact he
  refine ⟨hstarts, haccounted.symm.trans ?_⟩
  cases hfirst :
      call.target.withQuery client.grammar (canonicalQuery call.query) with
  | error e' =>
      obtain ⟨rfl, rfl⟩ := reaches_of_error hfirst h
      refine iff_of_true ?_ trivial
      cases hfinished
      exact haccounted.mpr
        ((fails_withQuery _ _ _ _ hfirst).accounts_iff.mpr rfl)
  | ok first =>
      have hexact :=
        Lib.exec_iff_along (C := Counted client call) (I := Accounted)
        (J := fun s => Aims client first s ∧ Disciplined client call s)
        (kept_step hfirst)
        (fun hstep hs => accounted_turn (step_turn hstep) hs.2) h
        (kept_initial hfirst started)
      refine hexact.trans (and_iff_right ?_)
      rw [initial_eq hfirst]
      intro e he
      cases he

end Exits

/-! The sample after a request that failed in transport. -/

/-- A retry is scheduled at once. -/
theorem sample_retries {s : SendState} (hphase : s.phase = .sending)
    (hattempts : s.attemptsCompleted = 1) (hclock : s.clock = 0)
    (hstarted : s.started = 0) :
    Lib.exec (step sampleClient sampleSend) s
      [.respond 0 (.error S3Error.transport) quietEnv, .wake 0] =
      some { s with
        phase := .head
        clock := 0
        delay := 0
        pendingRetryPermit := some ⟨14, false⟩
        log := .observed (.scheduled "GET" 1 S3Error.transport 0) ::
          .permitAcquired .retryable ⟨14, false⟩ :: s.log } := by
  obtain ⟨phase, target, region, redirected, body, started, clock, attempts,
    cost, permit, delay, log⟩ := s
  cases hphase
  cases hattempts
  cases hclock
  cases hstarted
  rfl

theorem sample_expires {s : SendState} {wait : Duration}
    (hphase : s.phase = .head) (hlate : sampleSend.deadline ≤ s.clock + wait) :
    Lib.exec (step sampleClient sampleSend) s [.check wait] =
      some ((s.after wait).leave operationTimeout) := by
  have hstep :
      step sampleClient sampleSend s (.check wait) =
          some ((s.after wait).leave operationTimeout) := by
    have hnone : remaining sampleSend.deadline (s.after wait).clock =
        .error operationTimeout :=
      if_neg (Nat.not_lt.mpr hlate)
    rw [step.eq_def, hphase]
    dsimp only
    rw [hnone]
  rw [Lib.exec, hstep]
  rfl

/-- The deadline passes before the second attempt: the error of an operation
that sent one request says that none was made, and gives no reason. -/
theorem sendSigned_miscounts : ∃ s e, Reaches sampleClient sampleSend 0
    (sampleRound ++
      ([.respond 0 (.error S3Error.transport) quietEnv, .wake 0] ++
      [.check (Duration.fromSecs 60)])) s ∧ s.phase = .finished (.error e) ∧
      ¬ (e.attempts = (transmissions s.log).length ∧
        (1 ≤ (transmissions s.log).length →
          e.retryStopReason.isSome = true)) := by
  obtain ⟨m, hm, hphase, -, -, -, -, hstarted, hclock, hattempts, hsent⟩ :=
    sample_sent
  have hretries := sample_retries hphase hattempts hclock hstarted
  have hlength : (transmissions m.log).length = 1 := by
    rw [← List.length_map Transmission.signingRegion, hsent]
    rfl
  have hlate : sampleSend.deadline ≤ 0 + Duration.fromSecs 60 := by decide
  have hrun :=
    (Lib.exec_append _ hm).trans
      ((Lib.exec_append _ hretries).trans (sample_expires rfl hlate))
  refine ⟨_, operationTimeout, hrun, rfl, ?_⟩
  show ¬ ((0 : Nat) = (transmissions m.log).length ∧ _)
  rw [hlength]
  exact fun h => absurd h.1 (by decide)

/-- An error that is not retried ends the sample after its first attempt. -/
theorem sendSigned_accounts_refused : ∃ s e, Reaches sampleClient sampleSend 0
    (sampleRound ++
      [.respond 0 (.error (S3Error.integrity "corrupted")) quietEnv]) s ∧
      s.phase = .finished (.error e) ∧
      ((e.attempts = (transmissions s.log).length ∧
          (1 ≤ (transmissions s.log).length →
            e.retryStopReason.isSome = true)) ↔
        Lib.Along (step sampleClient sampleSend)
          (Counted sampleClient sampleSend)
          (initial sampleClient sampleSend 0)
          (sampleRound ++
            [.respond 0
              (.error (S3Error.integrity "corrupted")) quietEnv])) := by
  obtain ⟨m, hm, hphase, -⟩ := sample_sent
  obtain ⟨s, hs, e, hfinished⟩ : ∃ s, Lib.exec (step sampleClient sampleSend) m
      [.respond 0 (.error (S3Error.integrity "corrupted")) quietEnv] = some s ∧
        ∃ e, s.phase = .finished (.error e) := by
    have hstep :
        step sampleClient sampleSend m
          (.respond 0 (.error (S3Error.integrity "corrupted")) quietEnv) =
        some ((m.after 0).fail sampleClient sampleSend
            (S3Error.integrity "corrupted") none quietEnv) := by
      rw [step.eq_def, hphase]
      rfl
    exact ⟨_, by rw [Lib.exec, hstep]; rfl, _, rfl⟩
  have hrun := (Lib.exec_append _ hm).trans hs
  exact ⟨s, e, hrun, hfinished, (sendSigned_accounts_iff hrun hfinished).2⟩

end SendState

end S3Wire
