/-
# `S3Wire.Client.Request.Elapsed` — when another attempt begins

"The maximum elapsed time in which another attempt may begin" is looked at when
an outcome is handled, and the delay is chosen within it; what follows — the
rest of the loop body, waking up, the look at the deadline, resolving
credentials and signing — is not.  So the bound is kept by luck:
`sendSigned_late` is a run with a provider that takes its time.

`Latency` bounds what follows, attempt by attempt, and `Prompt` is the condition
on a step that it stays within these bounds and that, where another attempt is
decided on, the longest delay that the policy may choose leaves room for them.  A
run of such steps keeps the bound (`sendSigned_prompt`).
-/
import S3Wire.Client.Request.Exits

namespace S3Wire

/-- How long may pass between the decision for another attempt and its
beginning: until the end of the loop body, beyond the delay, at the head of the
loop, and until the credentials are there and the request is signed. -/
structure Latency where
  rest : Duration
  waking : Duration
  checking : Duration
  signing : Duration

namespace SendState

section Elapsed

variable {client : S3Client} {call : SignedSend} {s s' : SendState}
  {label : SendLabel}

/-- Another attempt is decided on while there is room for it: for the longest
delay and the latencies before a retry, for the latencies before a request to
another region. -/
def Affords (client : S3Client) (call : SignedSend) (latency : Latency)
    (s : SendState) (label : SendLabel) : Prop :=
  ∀ handled s', s.handling client call label = some handled →
    step client call s label = some s' →
    (s'.phase = .sleeping →
      handled.rest ≤ latency.rest ∧
        handled.now - s.started +
            client.config.retryPolicy.longestDelay s.attemptsCompleted
              (handled.now - s.started)
              handled.retryAfter +
            (latency.rest +
              (latency.waking + (latency.checking + latency.signing))) ≤
          client.config.retryPolicy.maxElapsed) ∧
    (s'.phase = .head →
      handled.now - s.started + (latency.checking + latency.signing) ≤
        client.config.retryPolicy.maxElapsed)

/-- A step takes no longer than the attempt it belongs to allows; the first
attempt is bound by nothing. -/
def Prompt (client : S3Client) (call : SignedSend) (allowed : Nat → Latency)
    (s : SendState) (label : SendLabel) : Prop :=
  let latency := allowed s.attemptsCompleted
  match label with
  | .check wait => 1 ≤ s.attemptsCompleted → wait ≤ latency.checking
  | .sign wait _ beforeRemaining =>
      1 ≤ s.attemptsCompleted → wait + beforeRemaining ≤ latency.signing
  | .wake late => late ≤ latency.waking
  | .respond .. => s.Affords client call latency label
  | .collect .. => s.Affords client call latency label

/-- The bound has room for what is still to come before the next attempt. -/
def Ahead (client : S3Client) (allowed : Nat → Latency) (s : SendState) :
    Prop :=
  let latency := allowed s.attemptsCompleted
  let bound := s.started + client.config.retryPolicy.maxElapsed
  match s.phase with
  | .sleeping =>
      s.clock + s.delay +
        (latency.waking + (latency.checking + latency.signing)) ≤ bound
  | .head =>
      1 ≤ s.attemptsCompleted → s.clock + (latency.checking + latency.signing) ≤
        bound
  | .signing => 1 ≤ s.attemptsCompleted → s.clock + latency.signing ≤ bound
  | _ => True

/-- Every attempt after the first began within the bound. -/
def InTime (client : S3Client) (s : SendState) : Prop :=
  ∀ t ∈ (transmissions s.log).dropLast, t.clock - s.started ≤
    client.config.retryPolicy.maxElapsed

/-! Room is used up by what takes time, and measured from the start. -/

theorem room_after {clock wait used rest bound : Nat}
    (h : clock + (used + rest) ≤ bound) (hwait : wait ≤ used) :
    clock + wait + rest ≤ bound := by
  omega

theorem room_from_start {now started rest bound : Nat}
    (h : now - started + rest ≤ bound) :
    now + rest ≤ started + bound := by
  omega

theorem elapsed_of_room {clock used wait started bound : Nat}
    (h : clock + used ≤ started + bound) (hwait : wait ≤ used) :
    clock + wait - started ≤ bound := by
  omega

theorem room_after_delay
    {now rest delay longest allowed ahead started bound : Nat}
    (h : now - started + longest + (allowed + ahead) ≤ bound)
    (hrest : rest ≤ allowed) (hdelay : delay ≤ longest) :
    now + rest + delay + ahead ≤ started + bound := by
  omega

theorem ahead_of_isInFlight {allowed : Nat → Latency}
    (h : s.phase.isInFlight = true) :
    Ahead client allowed s := by
  rw [Ahead]
  cases hphase : s.phase with
  | sending => exact trivial
  | collecting => exact trivial
  | collectingError => exact trivial
  | finished => exact trivial
  | head =>
      rw [hphase] at h
      cases h
  | signing =>
      rw [hphase] at h
      cases h
  | sleeping =>
      rw [hphase] at h
      cases h

theorem affords_of_handling {allowed : Nat → Latency} {handled : Handling}
    (hhandled : s.handling client call label = some handled)
    (hprompt : Prompt client call allowed s label) :
    s.Affords client call (allowed s.attemptsCompleted) label := by
  cases label with
  | respond => exact hprompt
  | collect => exact hprompt
  | check => cases hhandled
  | sign => cases hhandled
  | wake => cases hhandled

theorem ahead_step {allowed : Nat → Latency}
    (h : step client call s label = some s')
    (hprompt : Prompt client call allowed s label)
    (hahead : Ahead client allowed s) :
    Ahead client allowed s' := by
  have hturn := step_turn h
  cases hturn with
  | expired => exact trivial
  | timedOut => exact trivial
  | refused => exact trivial
  | late => exact trivial
  | sent => exact trivial
  | succeeded => exact trivial
  | strayed => exact trivial
  | stopped => exact trivial
  | reading _ _ _ hnext => exact ahead_of_isInFlight hnext
  | checked hphase =>
      rw [Ahead, hphase] at hahead
      exact fun hattempts => room_after (hahead hattempts) (hprompt hattempts)
  | @woke late hphase =>
      rw [Ahead, hphase] at hahead
      have hroom := room_after hahead hprompt
      rw [Nat.add_assoc s.clock s.delay late] at hroom
      exact fun _ => hroom
  | @corrected _ clock _ _ _ _ _ _ _ _ _ handled hhandled hread =>
      subst hread
      obtain ⟨-, hroom⟩ :=
        affords_of_handling hhandled hprompt handled _ hhandled h
      exact fun _ => room_from_start (hroom rfl)
  | @scheduled _ decided clock _ delay _ _ _ _ _ _ _ _ _ _ handled hhandled
      hread hnow hdelay =>
      subst hread hnow
      obtain ⟨hroom, -⟩ :=
        affords_of_handling hhandled hprompt handled _ hhandled h
      obtain ⟨hrest, hroom⟩ := hroom rfl
      exact room_after_delay hroom hrest hdelay

theorem inTime_turn {allowed : Nat → Latency} (h : Turn client call s label s')
    (hd : Disciplined client call s)
    (hprompt : Prompt client call allowed s label)
    (hahead : Ahead client allowed s) (hs : InTime client s) :
    InTime client s' := by
  cases h with
  | @sent wait beforeRemaining answer request body clock hphase hsigned hnow
      hclock =>
      rw [InTime, transmissions_sent]
      rcases Nat.eq_zero_or_pos s.attemptsCompleted with hzero | hpos
      · have hnone : transmissions s.log = [] := by
          rw [← List.length_eq_zero_iff, hd.transmissions_length, hzero]
        rw [hnone]
        exact List.forall_mem_nil _
      · have hsome : transmissions s.log ≠ [] := by
          intro hnone
          rw [← hd.transmissions_length, hnone] at hpos
          exact absurd hpos (by decide)
        rw [List.dropLast_cons_of_ne_nil hsome, List.forall_mem_cons]
        refine ⟨?_, hs⟩
        rw [Ahead, hphase] at hahead
        have hintime := elapsed_of_room (hahead hpos) (hprompt hpos)
        rw [← Nat.add_assoc, ← hnow] at hintime
        exact hintime
  | checked => exact hs
  | expired => exact hs
  | timedOut => exact hs
  | refused => exact hs
  | late => exact hs
  | woke => exact hs
  | succeeded => exact hs
  | reading => exact hs
  | corrected => exact hs
  | strayed => exact hs
  | stopped => exact hs
  | scheduled => exact hs

/-- **In a run of prompt steps another attempt begins within the bound.** -/
theorem sendSigned_prompt {started : Instant} {labels : List SendLabel}
    {allowed : Nat → Latency} (h : Reaches client call started labels s)
    (hprompt : Lib.Along (step client call) (Prompt client call allowed)
      (initial client call started) labels) :
    ∀ t ∈ (transmissions s.log).dropLast, t.clock - s.started ≤
      client.config.retryPolicy.maxElapsed := by
  cases hfirst :
      call.target.withQuery client.grammar (canonicalQuery call.query) with
  | error e =>
      obtain ⟨-, rfl⟩ := reaches_of_error hfirst h
      exact List.forall_mem_nil _
  | ok first =>
      have hahead : Ahead client allowed (initial client call started) := by
        rw [initial_eq hfirst]
        exact fun hattempts => absurd hattempts (Nat.not_succ_le_zero 0)
      have hintime : InTime client (initial client call started) := by
        rw [initial_eq hfirst]
        exact List.forall_mem_nil _
      have hinvariant := Lib.exec_invariant_of
        (I := fun s => (Aims client first s ∧ Disciplined client call s) ∧
          Ahead client allowed s ∧
          InTime client s)
        (fun hstep hp hs =>
          ⟨kept_step hfirst hstep hs.1, ahead_step hstep hp hs.2.1,
            inTime_turn (step_turn hstep) hs.1.2 hp hs.2.1 hs.2.2⟩) h hprompt
      exact (hinvariant
        ⟨kept_initial hfirst started, hahead, hintime⟩).2.2

end Elapsed

/-! The sample, with a retry for which the credential provider takes its time. -/

def sampleRetry : List SendLabel :=
  [.respond 0 (.error S3Error.transport) quietEnv, .wake 0]

def sampleLabels (wait : Duration) : List SendLabel :=
  sampleRound ++
    (sampleRetry ++ [.check 0, .sign wait (some sampleSigningEnv) 0])

/-- The retry is decided on at once, and begins when the provider has
answered. -/
theorem sample_waits {wait : Duration} (hopen : wait < sampleSend.deadline) :
    ∃ s t first, Reaches sampleClient sampleSend 0 (sampleLabels wait) s ∧
    s.started = 0 ∧
      transmissions s.log = [t, first] ∧ t.clock = wait := by
  obtain ⟨m, hm, hphase, htarget, hregion, -, hbody, hstarted, hclock,
    hattempts, hsent⟩ := sample_sent
  have hretries := sample_retries hphase hattempts hclock hstarted
  obtain ⟨m', hm', hphase', htarget', hregion', hbody', hstarted', hclock',
      hpast⟩ : ∃ m' : SendState,
      Lib.exec (step sampleClient sampleSend) m sampleRetry = some m' ∧
        m'.phase = .head ∧ m'.target = sampleRegionalTarget "us-east-1" ∧
        m'.signingRegion = "us-east-1".toList ∧ m'.body = none ∧
          m'.started = 0 ∧ m'.clock = 0 ∧
        transmissions m'.log = transmissions m.log :=
    ⟨_, hretries, rfl, htarget, hregion, hbody, hstarted, rfl, rfl⟩
  have hwaited : m'.clock + wait = wait := by
    rw [hclock', Nat.zero_add]
  have hearly : m'.clock + wait < sampleSend.deadline := by
    rw [hwaited]
    exact hopen
  obtain ⟨request, hsecond⟩ :=
    sample_attempt hphase' (Or.inl rfl)
      (sample_input htarget' hregion' hbody') hearly
  have hrun :=
    (Lib.exec_append _ hm).trans ((Lib.exec_append _ hm').trans hsecond)
  obtain ⟨first, hfirst, -⟩ := List.map_eq_singleton_iff.mp hsent
  rw [beginAttempt_eq] at hrun
  have hlog := (transmissions_sent ⟨m'.target, m'.signingRegion, request,
      min sampleClient.config.attemptTimeout
        (sampleSend.deadline - (m'.clock + wait)),
      m'.clock + wait⟩ (.started "GET" (saturatingAdd32 m'.attemptsCompleted 1))
    m'.pendingRetryPermit m'.log).trans (congrArg _ (hpast.trans hfirst))
  exact ⟨_, _, first, hrun, hstarted', hlog, hwaited⟩

/-- A minute is allowed and half a minute is the bound: the retry begins after
it. -/
theorem sendSigned_late : ∃ s, Reaches sampleClient sampleSend 0
    (sampleLabels (Duration.fromSecs 31)) s ∧
      ¬ ∀ t ∈ (transmissions s.log).dropLast,
        t.clock - s.started ≤ sampleClient.config.retryPolicy.maxElapsed := by
  obtain ⟨s, t, first, hs, hstarted, hsent, hclock⟩ :=
    @sample_waits (Duration.fromSecs 31) (by decide)
  refine ⟨s, hs, fun hall => ?_⟩
  rw [hsent, hstarted] at hall
  have hbound := hall t (List.mem_singleton_self t)
  rw [hclock] at hbound
  exact absurd hbound (by decide)

/-- A second for each step but the signing, and two for that. -/
def sampleLatency : Latency :=
  ⟨Duration.fromSecs 1, Duration.fromSecs 1, Duration.fromSecs 1,
    Duration.fromSecs 2⟩

/-- A provider that answers within a second keeps the bound. -/
theorem sendSigned_prompt_retried : ∃ s, Reaches sampleClient sampleSend 0
    (sampleLabels (Duration.fromSecs 1)) s ∧
      (transmissions s.log).length = 2 ∧
      ∀ t ∈ (transmissions s.log).dropLast,
        t.clock - s.started ≤ sampleClient.config.retryPolicy.maxElapsed := by
  obtain ⟨s, t, first, hs, -, hsent, -⟩ :=
    @sample_waits (Duration.fromSecs 1) (by decide)
  refine ⟨s, hs, congrArg List.length hsent,
    @sendSigned_prompt _ _ _ _ _ (fun _ => sampleLatency) hs ?_⟩
  obtain ⟨m, hm, hphase, -, -, -, -, hstarted, hclock, hattempts, -⟩ :=
    sample_sent
  have hround : ∀ wait ≤ Duration.fromSecs 2, ∀ s,
      Lib.Along (step sampleClient sampleSend)
      (Prompt sampleClient sampleSend fun _ => sampleLatency) s
      [.check 0, .sign wait (some sampleSigningEnv) 0] := by
    intro wait hwait s
    refine Lib.along_of_forall (fun s label hlabel => ?_) s
    rcases List.mem_cons.mp hlabel with rfl | hlabel
    · exact fun _ => Nat.zero_le _
    · rw [List.mem_singleton.mp hlabel]
      exact fun _ => hwait
  have haffords : Affords sampleClient sampleSend sampleLatency m
      (.respond 0 (.error S3Error.transport) quietEnv) := by
    rintro handled s' hhandled -
    cases hhandled
    dsimp only
    rw [hclock, hstarted, hattempts]
    exact ⟨fun _ => ⟨Nat.zero_le _, by decide⟩, fun _ => by decide⟩
  have hretries := sample_retries hphase hattempts hclock hstarted
  rw [sampleLabels]
  refine (Lib.along_append _ hm).mpr ⟨hround 0 (Nat.zero_le _) _, ?_⟩
  refine (Lib.along_append _ hretries).mpr
    ⟨⟨haffords, ?_⟩, hround _ (by decide) _⟩
  cases step sampleClient sampleSend m
      (.respond 0 (.error S3Error.transport) quietEnv) with
  | none => exact trivial
  | some s' => exact Lib.along_of_forall (fun s label hlabel => by
      rw [List.mem_singleton.mp hlabel]
      exact Nat.zero_le _) s'

end SendState

end S3Wire
