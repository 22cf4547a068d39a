/-
# `S3Wire.Client.Request.Attempts` — the discipline of attempts

What the loop of `send_signed_inner` may do at most, without its phases, clocks
and bodies: a *stage* says where an operation stands, and `Discipline` which
histories lead there.

    fresh ──first──▶ opened ──succeed / fail──▶ done
                     ▲    │
                     │    ├─correct──▶ corrected ──resendCorrected──▶ opened
                     │    └─schedule─▶ scheduled ──resend───────────▶ opened

The loop refines it (`discipline_turn`, `discipline_of_reaches`), so what is
proved of every disciplined history holds of every run: how often something is
sent and after what (`sendSigned_attempts`), and what an observer sees
(`sendSigned_lifecycle`).
-/
import S3Wire.Client.Request.Targets

namespace S3Wire

/-! ## The discipline -/

/-- What of a call bounds its attempts. -/
structure AttemptRules where
  method : Str
  maxAttempts : Nat
  replayable : Bool
  deadline : Instant
  attemptTimeout : Duration
  /-- Every corrected authority makes a target. -/
  corrects : Prop
  maxAttempts_pos : 1 ≤ maxAttempts

/-- Sent before the deadline, with no more time than is left. -/
structure AttemptRules.Timely (rules : AttemptRules) (t : Transmission) :
    Prop where
  clock : t.clock < rules.deadline
  remaining : t.timeout ≤ rules.deadline - t.clock
  attempt : t.timeout ≤ rules.attemptTimeout

/-- Where a loop stands, as far as the quota is concerned. -/
inductive Stage where
  | fresh
  | corrected (attempts : Nat)
  | scheduled (attempts : Nat) (redirected : Bool) (permit : RetryPermit)
  | opened (attempts : Nat) (redirected : Bool)
  | done (attempts : Nat) (success : Bool)

namespace Stage

/-- How many requests were sent. -/
def attempts : Stage → Nat
  | fresh => 0
  | corrected n => n
  | scheduled n _ _ => n
  | opened n _ => n
  | done n _ => n

/-- Between two attempts, or before the first. -/
def isWaiting : Stage → Bool
  | fresh => true
  | corrected _ => true
  | scheduled .. => true
  | _ => false

def isDone : Stage → Bool
  | done .. => true
  | _ => false

/-- How many corrections there can have been. -/
def corrections : Stage → Nat
  | fresh => 0
  | corrected _ => 1
  | scheduled _ redirected _ => redirected.toNat
  | opened _ redirected => redirected.toNat
  | done .. => 1

end Stage

/-- The histories, latest first, that lead to a stage. -/
inductive Discipline (rules : AttemptRules) : Stage → List SendEvent → Prop
  | start : Discipline rules .fresh []
  | first {t : Transmission} {log : List SendEvent} :
      Discipline rules .fresh log → rules.Timely t →
      Discipline rules (.opened 1 false)
        (.sent t :: .observed (.started rules.method 1) :: log)
  | correct {n : Nat} {log : List SendEvent} :
      Discipline rules (.opened n false) log →
      rules.replayable = true → n < rules.maxAttempts →
      Discipline rules (.corrected n)
        (.observed (.redirected rules.method n) :: log)
  | resendCorrected {n : Nat} {t : Transmission} {log : List SendEvent} :
      Discipline rules (.corrected n) log → rules.Timely t →
      Discipline rules (.opened (n + 1) true)
        (.sent t :: .observed (.started rules.method (n + 1)) :: log)
  | schedule {n : Nat} {redirected : Bool} {error : S3Error} {delay : Duration}
      {permit : RetryPermit}
      {log : List SendEvent} : Discipline rules (.opened n redirected) log →
      rules.replayable = true → n < rules.maxAttempts → error.retry ≠ .never →
      retryCost error.retry = some permit.cost →
      Discipline rules (.scheduled n redirected permit)
        (.observed (.scheduled rules.method n error delay) ::
          .permitAcquired error.retry permit :: log)
  | resend {n : Nat} {redirected : Bool} {permit : RetryPermit}
      {t : Transmission} {log : List SendEvent} :
      Discipline rules (.scheduled n redirected permit) log → rules.Timely t →
      Discipline rules (.opened (n + 1) redirected)
        (.sent t :: .observed (.started rules.method (n + 1)) ::
          .permitCommitted permit :: log)
  | succeed {n : Nat} {redirected : Bool} {cost : Option Nat}
      {log : List SendEvent} :
      Discipline rules (.opened n redirected) log →
      Discipline rules (.done n true)
        (.observed (.succeeded rules.method n) :: .replenished cost :: log)
  | fail {n : Nat} {redirected : Bool} {error : S3Error}
      {log : List SendEvent} :
      Discipline rules (.opened n redirected) log →
      Discipline rules (.done n false)
        (.observed (.failed rules.method n error) :: log)
  /-- An error on the way to the next attempt. -/
  | leave {stage : Stage} {log : List SendEvent} : Discipline rules stage log →
      stage.isWaiting = true →
      Discipline rules (.done stage.attempts false) log
  /-- A corrected authority that makes no target. -/
  | stray {n : Nat} {redirected : Bool} {log : List SendEvent} :
      Discipline rules (.opened n redirected) log → ¬ rules.corrects →
        Discipline rules (.done n false) log

namespace Discipline

variable {rules : AttemptRules} {stage : Stage} {log : List SendEvent}

/-! ## How much is sent -/

/-- What the number of attempts at a stage is bounded by. -/
def Fits (rules : AttemptRules) : Stage → Prop
  | .fresh => True
  | .corrected n => n < rules.maxAttempts ∧ rules.replayable = true
  | .scheduled n _ _ => n < rules.maxAttempts ∧ rules.replayable = true
  | .opened n _ => n ≤ rules.maxAttempts ∧ (n ≤ 1 ∨ rules.replayable = true)
  | .done n _ => n ≤ rules.maxAttempts ∧ (n ≤ 1 ∨ rules.replayable = true)

theorem fits (h : Discipline rules stage log) : Fits rules stage := by
  induction h with
  | start => trivial
  | first => exact ⟨rules.maxAttempts_pos, Or.inl le_rfl⟩
  | correct _ hreplayable hattempts => exact ⟨hattempts, hreplayable⟩
  | resendCorrected _ _ ih => exact ⟨ih.1, Or.inr ih.2⟩
  | schedule _ hreplayable hattempts => exact ⟨hattempts, hreplayable⟩
  | resend _ _ ih => exact ⟨ih.1, Or.inr ih.2⟩
  | succeed _ ih => exact ih
  | fail _ ih => exact ih
  | @leave stage log _ hwaiting ih =>
      cases stage with
      | fresh => exact ⟨Nat.zero_le _, Or.inl (Nat.zero_le _)⟩
      | corrected n => exact ⟨ih.1.le, Or.inr ih.2⟩
      | scheduled n redirected permit => exact ⟨ih.1.le, Or.inr ih.2⟩
      | opened => cases hwaiting
      | done => cases hwaiting
  | stray _ _ ih => exact ih

theorem opened_pos {n : Nat} {redirected : Bool}
    (h : Discipline rules (.opened n redirected) log) : 1 ≤ n := by
  cases h with
  | first => exact le_rfl
  | resendCorrected => exact Nat.le_add_left _ _
  | resend => exact Nat.le_add_left _ _

theorem transmissions_length (h : Discipline rules stage log) :
    (transmissions log).length = stage.attempts := by
  induction h with
  | start => rfl
  | first _ _ ih => exact congrArg (· + 1) ih
  | correct _ _ _ ih => exact ih
  | resendCorrected _ _ ih => exact congrArg (· + 1) ih
  | schedule _ _ _ _ _ ih => exact ih
  | resend _ _ ih => exact congrArg (· + 1) ih
  | succeed _ ih => exact ih
  | fail _ ih => exact ih
  | leave _ _ ih => exact ih
  | stray _ _ ih => exact ih

theorem starts_eq (h : Discipline rules stage log) :
    log.countP (SendEvent.isOf .attemptStarted) = stage.attempts := by
  have hcons : ∀ {n : Nat} {log : List SendEvent},
      log.countP (SendEvent.isOf .attemptStarted) = n →
      List.countP (SendEvent.isOf .attemptStarted)
          (.observed (.started rules.method (n + 1)) :: log) = n + 1 := by
    intro n log hlog
    rw [List.countP_cons_of_pos rfl, hlog]
  induction h with
  | start => rfl
  | first _ _ ih => exact hcons ih
  | correct _ _ _ ih => exact ih
  | resendCorrected _ _ ih => exact hcons ih
  | schedule _ _ _ _ _ ih => exact ih
  | resend _ _ ih => exact hcons ih
  | succeed _ ih => exact ih
  | fail _ ih => exact ih
  | leave _ _ ih => exact ih
  | stray _ _ ih => exact ih

theorem corrections_le (h : Discipline rules stage log) :
    log.countP (SendEvent.isOf .regionRedirected) ≤ stage.corrections := by
  induction h with
  | start => exact le_rfl
  | first _ _ ih => exact ih
  | correct _ _ _ ih =>
      rw [List.countP_cons_of_pos rfl]
      exact Nat.succ_le_succ ih
  | resendCorrected _ _ ih => exact ih
  | schedule _ _ _ _ _ ih => exact ih
  | resend _ _ ih => exact ih
  | @succeed n redirected cost log _ ih =>
      exact ih.trans (Bool.toNat_le redirected)
  | @fail n redirected error log _ ih =>
      exact ih.trans (Bool.toNat_le redirected)
  | @leave stage log _ hwaiting ih =>
      refine ih.trans ?_
      cases stage with
      | fresh => exact Nat.zero_le _
      | corrected n => exact le_rfl
      | scheduled n redirected permit => exact Bool.toNat_le redirected
      | opened => cases hwaiting
      | done => cases hwaiting
  | @stray n redirected log _ _ ih => exact ih.trans (Bool.toNat_le redirected)

/-! ## After what it is sent -/

/-- There was no success yet. -/
def Unsettled (log : List SendEvent) : Prop :=
  ∀ event, .observed event ∈ log → event.kind ≠ .attemptSucceeded

theorem unsettled (h : Discipline rules stage log)
    (hstage : stage.isDone = false) : Unsettled log := by
  have hcons : ∀ {e : SendEvent} {log : List SendEvent}, Unsettled log →
      (∀ event, e = .observed event → event.kind ≠ .attemptSucceeded) →
          Unsettled (e :: log) := by
    intro e log hlog he event hmem
    rcases List.mem_cons.mp hmem with heq | hpast
    · exact he event heq.symm
    · exact hlog event hpast
  have hother : ∀ {e : SendEvent}, e.event = none →
      ∀ event, e = .observed event →
      event.kind ≠ .attemptSucceeded := by
    rintro e he event rfl
    cases he
  have hevent : ∀ {this : RequestEvent}, this.kind ≠ .attemptSucceeded →
      ∀ event,
      SendEvent.observed this = .observed event →
          event.kind ≠ .attemptSucceeded := by
    rintro this hthis event heq
    cases heq
    exact hthis
  induction h with
  | start => exact nofun
  | first _ _ ih => exact hcons (hcons (ih rfl) (hevent nofun)) (hother rfl)
  | correct _ _ _ ih => exact hcons (ih rfl) (hevent nofun)
  | resendCorrected _ _ ih =>
      exact hcons (hcons (ih rfl) (hevent nofun)) (hother rfl)
  | schedule _ _ _ _ _ ih =>
      exact hcons (hcons (ih rfl) (hother rfl)) (hevent nofun)
  | resend _ _ ih =>
      exact hcons (hcons (hcons (ih rfl) (hother rfl)) (hevent nofun))
        (hother rfl)
  | succeed => cases hstage
  | fail => cases hstage
  | leave => cases hstage
  | stray => cases hstage

/-- What comes before a transmission: nothing was sent, or a correction, or a
retryable error and the permit that was acquired for its classification and is
now committed. -/
inductive Prompted (rules : AttemptRules) : List SendEvent → Prop
  | first {log : List SendEvent} : transmissions log = [] →
      Prompted rules (.observed (.started rules.method 1) :: log)
  | corrected {n : Nat} {log : List SendEvent} :
      Prompted rules (.observed (.started rules.method (n + 1)) ::
        .observed (.redirected rules.method n) :: log)
  | retried {n : Nat} {error : S3Error} {delay : Duration}
      {permit : RetryPermit} {log : List SendEvent} :
      error.retry ≠ .never → retryCost error.retry = some permit.cost →
      Prompted rules
        (.observed (.started rules.method (n + 1)) :: .permitCommitted permit ::
        .observed (.scheduled rules.method n error delay) ::
          .permitAcquired error.retry permit :: log)

/-- What is asked of an event and the history before it. -/
def Allowed (rules : AttemptRules) : SendEvent → List SendEvent → Prop
  | .sent t, past => rules.Timely t ∧ Unsettled past ∧ Prompted rules past
  | _, _ => True

theorem justified (h : Discipline rules stage log) :
    Lib.Justified (Allowed rules) log := by
  have hstarted : ∀ {n : Nat} {log : List SendEvent}, Unsettled log →
      Unsettled (.observed (.started rules.method n) :: log) := by
    intro n log hlog event hmem
    rcases List.mem_cons.mp hmem with heq | hpast
    · cases heq
      exact nofun
    · exact hlog event hpast
  induction h with
  | start => exact trivial
  | first h ht ih =>
      have hnone := List.length_eq_zero_iff.mp h.transmissions_length
      exact ⟨⟨ht, hstarted (h.unsettled rfl), .first hnone⟩, trivial, ih⟩
  | correct _ _ _ ih => exact ⟨trivial, ih⟩
  | resendCorrected h ht ih =>
      refine ⟨⟨ht, hstarted (h.unsettled rfl), ?_⟩, trivial, ih⟩
      cases h with
      | correct => exact .corrected
  | schedule _ _ _ _ _ ih => exact ⟨trivial, trivial, ih⟩
  | @resend n redirected permit t log h ht ih =>
      have hcommitted : Unsettled (.permitCommitted permit :: log) :=
        fun event hmem =>
        h.unsettled rfl event ((List.mem_cons.mp hmem).resolve_left nofun)
      refine ⟨⟨ht, hstarted hcommitted, ?_⟩, trivial, trivial, ih⟩
      cases h with
      | schedule _ _ _ hnever hcost => exact .retried hnever hcost
  | succeed _ ih => exact ⟨trivial, trivial, ih⟩
  | fail _ ih => exact ⟨trivial, ih⟩
  | leave _ _ ih => exact ih
  | stray _ _ ih => exact ih

end Discipline

/-! ## What an observer sees -/

/-- The two events of an attempt. -/
structure Attempt where
  start : RequestEvent
  outcome : RequestEvent

namespace Attempt

variable {attempts : List Attempt} {start outcome : RequestEvent}

/-- What an attempt tells an observer. -/
def events (a : Attempt) : List RequestEvent := [a.start, a.outcome]

/-- Another attempt may follow. -/
def GoesOn (a : Attempt) : Prop :=
  a.outcome.kind = .retryScheduled ∨ a.outcome.kind = .regionRedirected

/-- The attempts are numbered from one, without a gap. -/
def Numbered (attempts : List Attempt) : Prop :=
  ∀ i a, attempts[i]? = some a → a.start.kind = .attemptStarted ∧
    a.start.attempt = i + 1 ∧
    a.outcome.kind ≠ .attemptStarted ∧ a.outcome.attempt = i + 1

theorem Numbered.concat (h : Numbered attempts)
    (hstart : start.kind = .attemptStarted)
    (hstartNumber : start.attempt = attempts.length + 1)
    (houtcome : outcome.kind ≠ .attemptStarted)
    (houtcomeNumber : outcome.attempt = attempts.length + 1) :
    Numbered (attempts ++ [⟨start, outcome⟩]) := by
  intro i a ha
  rcases Nat.lt_trichotomy i attempts.length with hlt | rfl | hgt
  · rw [List.getElem?_append_left hlt] at ha
    exact h i a ha
  · rw [List.getElem?_concat_length] at ha
    cases ha
    exact ⟨hstart, hstartNumber, houtcome, houtcomeNumber⟩
  · rw [List.getElem?_eq_none (by rw [List.length_append]; exact hgt)] at ha
    cases ha

end Attempt

namespace Discipline

open Attempt

variable {rules : AttemptRules} {stage : Stage} {log : List SendEvent}

theorem observations_observed (event : RequestEvent) (log : List SendEvent) :
    observations (.observed event :: log) = observations log ++ [event] :=
  List.reverse_cons

theorem observations_other {e : SendEvent} (h : e.event = none)
    (log : List SendEvent) :
    observations (e :: log) = observations log := by
  rw [observations, List.filterMap_cons_none h]
  rfl

theorem countP_observations (kind : RequestEventKind) (log : List SendEvent) :
    (observations log).countP (fun event => event.kind = kind) =
      log.countP (SendEvent.isOf kind) := by
  rw [observations, List.countP_reverse, List.countP_filterMap]
  refine List.countP_congr fun e _ => ?_
  cases e with
  | observed event => exact Iff.rfl
  | sent => exact Iff.rfl
  | permitAcquired => exact Iff.rfl
  | permitCommitted => exact Iff.rfl
  | replenished => exact Iff.rfl

/-- What the observer was told at a stage. -/
def Told (events : List RequestEvent) : Stage → Prop
  | .opened n _ =>
    ∃ attempts start, Numbered attempts ∧ (∀ a ∈ attempts, a.GoesOn) ∧
      events = attempts.flatMap Attempt.events ++ [start] ∧
        attempts.length + 1 = n ∧
      start.kind = .attemptStarted ∧ start.attempt = n
  | .done _ success =>
      ∃ attempts, Numbered attempts ∧ (∀ a ∈ attempts.dropLast, a.GoesOn) ∧
      events = attempts.flatMap Attempt.events ∧
      (success = true ↔ ∃ a, attempts.getLast? = some a ∧
        a.outcome.kind = .attemptSucceeded)
  | stage => ∃ attempts, Numbered attempts ∧ (∀ a ∈ attempts, a.GoesOn) ∧
      events = attempts.flatMap Attempt.events ∧
        attempts.length = stage.attempts

theorem told_opened {attempts : List Attempt} {events : List RequestEvent}
    {n : Nat} {redirected : Bool} {start : RequestEvent}
    (hnumbered : Numbered attempts) (hgoes : ∀ a ∈ attempts, a.GoesOn)
    (hevents : events = attempts.flatMap Attempt.events)
    (hlength : attempts.length = n) (hstart : start.kind = .attemptStarted)
    (hnumber : start.attempt = n + 1) :
    Told (events ++ [start]) (.opened (n + 1) redirected) :=
  ⟨attempts, start, hnumbered, hgoes, congrArg (· ++ [start]) hevents,
    congrArg (· + 1) hlength, hstart,
    hnumber⟩

theorem told_outcome {events : List RequestEvent} {n : Nat} {redirected : Bool}
    {outcome : RequestEvent} (h : Told events (.opened n redirected))
    (houtcome : outcome.kind ≠ .attemptStarted)
    (hnumber : outcome.attempt = n) :
    ∃ attempts start, Numbered (attempts ++ [⟨start, outcome⟩]) ∧
    (∀ a ∈ attempts, a.GoesOn) ∧
      events ++ [outcome] =
        (attempts ++ [⟨start, outcome⟩]).flatMap Attempt.events ∧
      (attempts ++ [(⟨start, outcome⟩ : Attempt)]).length = n := by
  obtain ⟨attempts, start, hnumbered, hgoes, hevents, hlength, hstart,
    hstartNumber⟩ := h
  refine ⟨attempts, start, ?_, hgoes, ?_, ?_⟩
  · exact hnumbered.concat hstart (hstartNumber.trans hlength.symm) houtcome
      (hnumber.trans hlength.symm)
  · rw [hevents, List.flatMap_append, List.append_assoc]
    rfl
  · rw [List.length_append]
    exact hlength

theorem forall_mem_concat {attempts : List Attempt} {a : Attempt}
    (h : ∀ a ∈ attempts, a.GoesOn) (ha : a.GoesOn) :
    ∀ b ∈ attempts ++ [a], b.GoesOn := by
  intro b hb
  rcases List.mem_append.mp hb with hb | hb
  · exact h b hb
  · rw [List.mem_singleton.mp hb]
    exact ha

theorem told_done {events : List RequestEvent} {n : Nat} {redirected : Bool}
    {outcome : RequestEvent} {success : Bool}
    (h : Told events (.opened n redirected))
    (houtcome : outcome.kind ≠ .attemptStarted) (hnumber : outcome.attempt = n)
    (hsuccess : success = true ↔ outcome.kind = .attemptSucceeded) :
    Told (events ++ [outcome]) (.done n success) := by
  obtain ⟨attempts, start, hnumbered, hgoes, hevents, -⟩ :=
    told_outcome h houtcome hnumber
  refine ⟨_, hnumbered, ?_, hevents, hsuccess.trans ?_⟩
  · rw [List.dropLast_concat]
    exact hgoes
  · rw [List.getLast?_concat]
    constructor
    · intro hkind
      exact ⟨_, rfl, hkind⟩
    · rintro ⟨a, ha, hkind⟩
      cases ha
      exact hkind

theorem told (h : Discipline rules stage log) (hcorrects : rules.corrects) :
    Told (observations log) stage := by
  induction h with
  | start =>
      have hnumbered : Numbered [] := by
        intro i a ha
        cases ha
      exact ⟨[], hnumbered, fun a ha => absurd ha List.not_mem_nil, rfl, rfl⟩
  | first _ _ ih =>
      obtain ⟨attempts, hnumbered, hgoes, hevents, hlength⟩ := ih
      rw [observations_other rfl, observations_observed]
      exact told_opened hnumbered hgoes hevents hlength rfl rfl
  | @correct n log _ _ _ ih =>
      obtain ⟨attempts, start, hnumbered, hgoes, hevents, hlength⟩ :=
        @told_outcome _ _ _ (.redirected rules.method n) ih nofun rfl
      rw [observations_observed]
      exact ⟨_, hnumbered, forall_mem_concat hgoes (Or.inr rfl), hevents,
        hlength⟩
  | resendCorrected _ _ ih =>
      obtain ⟨attempts, hnumbered, hgoes, hevents, hlength⟩ := ih
      rw [observations_other rfl, observations_observed]
      exact told_opened hnumbered hgoes hevents hlength rfl rfl
  | @schedule n redirected error delay permit log _ _ _ _ _ ih =>
      obtain ⟨attempts, start, hnumbered, hgoes, hevents, hlength⟩ :=
        @told_outcome _ _ _ (.scheduled rules.method n error delay) ih nofun rfl
      rw [observations_observed, observations_other rfl]
      exact ⟨_, hnumbered, forall_mem_concat hgoes (Or.inl rfl), hevents,
        hlength⟩
  | resend _ _ ih =>
      obtain ⟨attempts, hnumbered, hgoes, hevents, hlength⟩ := ih
      rw [observations_other rfl, observations_observed, observations_other rfl]
      exact told_opened hnumbered hgoes hevents hlength rfl rfl
  | succeed _ ih =>
      rw [observations_observed, observations_other rfl]
      exact told_done ih nofun rfl (iff_of_true rfl rfl)
  | fail _ ih =>
      rw [observations_observed]
      exact told_done ih nofun rfl (iff_of_false nofun nofun)
  | @leave stage log _ hwaiting ih =>
      have hwaits : ∃ attempts, Numbered attempts ∧ (∀ a ∈ attempts, a.GoesOn) ∧
          observations log = attempts.flatMap Attempt.events := by
        cases stage with
        | fresh => exact ih.imp fun _ h => ⟨h.1, h.2.1, h.2.2.1⟩
        | corrected n => exact ih.imp fun _ h => ⟨h.1, h.2.1, h.2.2.1⟩
        | scheduled n redirected permit =>
            exact ih.imp fun _ h => ⟨h.1, h.2.1, h.2.2.1⟩
        | opened => cases hwaiting
        | done => cases hwaiting
      obtain ⟨attempts, hnumbered, hgoes, hevents⟩ := hwaits
      refine ⟨attempts, hnumbered,
        fun a ha => hgoes a (List.mem_of_mem_dropLast ha), hevents, ?_⟩
      refine iff_of_false nofun ?_
      rintro ⟨a, hlast, hkind⟩
      rcases hgoes a (List.mem_of_getLast? hlast) with hscheduled | hredirected
      · cases hscheduled.symm.trans hkind
      · cases hredirected.symm.trans hkind
  | stray _ hstray => exact absurd hcorrects hstray

end Discipline

/-! ## The loop keeps the discipline -/

def SendPhase.isWaiting : SendPhase → Bool
  | .head => true
  | .signing => true
  | .sleeping => true
  | _ => false

theorem SendPhase.isInFlight_eq_false {phase : SendPhase}
    (h : phase.isWaiting = true) : phase.isInFlight = false := by
  cases phase with
  | head => rfl
  | signing => rfl
  | sleeping => rfl
  | sending => cases h
  | collecting => cases h
  | collectingError => cases h
  | finished => cases h

namespace SendState

section Refinement

variable {client : S3Client} {call : SignedSend} {s s' : SendState}
  {label : SendLabel}
  {first : EndpointUrl} {stage : Stage}

/-- What bounds the attempts of a call. -/
def rules (client : S3Client) (call : SignedSend) : AttemptRules where
  method := call.method
  maxAttempts := client.config.retryPolicy.maxAttempts
  replayable := call.isReplayable
  deadline := call.deadline
  attemptTimeout := client.config.attemptTimeout
  corrects :=
    ∀ first, call.target.withQuery client.grammar (canonicalQuery call.query) =
      .ok first →
    ∀ region authority,
      redirectedAwsAuthority client.config.endpoint.url region =
        some authority →
      isRegion region = true →
        ∃ target,
          first.withAuthority client.grammar
            (client.config.serviceAuthority authority) = .ok target
  maxAttempts_pos := client.config.retryPolicy.maxAttempts_pos

/-- Where a state of the loop stands. -/
inductive StandsAt (s : SendState) : Stage → Prop
  | fresh (hphase : s.phase.isWaiting = true)
    (hattempts : s.attemptsCompleted = 0)
      (hredirected : s.regionRedirected = false)
      (hpermit : s.pendingRetryPermit = none) : StandsAt s .fresh
  | corrected (hphase : s.phase.isWaiting = true)
      (hredirected : s.regionRedirected = true)
      (hpermit : s.pendingRetryPermit = none) :
        StandsAt s (.corrected s.attemptsCompleted)
  | scheduled {permit : RetryPermit} (hphase : s.phase.isWaiting = true)
      (hpermit : s.pendingRetryPermit = some permit) :
      StandsAt s (.scheduled s.attemptsCompleted s.regionRedirected permit)
  | opened (hphase : s.phase.isInFlight = true)
      (hpermit : s.pendingRetryPermit = none) :
      StandsAt s (.opened s.attemptsCompleted s.regionRedirected)
  | done {result : Except S3Error SuccessfulResponse}
      (hphase : s.phase = .finished result) :
      StandsAt s (.done s.attemptsCompleted result.isOk)

theorem StandsAt.of_inFlight (h : StandsAt s stage)
    (hphase : s.phase.isInFlight = true) :
    stage = .opened s.attemptsCompleted s.regionRedirected ∧
    s.pendingRetryPermit = none := by
  have hnot : s.phase.isWaiting = true → False := fun hwaiting =>
    Bool.false_ne_true
      ((SendPhase.isInFlight_eq_false hwaiting).symm.trans hphase)
  cases h with
  | fresh hwaiting => exact (hnot hwaiting).elim
  | corrected hwaiting => exact (hnot hwaiting).elim
  | scheduled hwaiting => exact (hnot hwaiting).elim
  | opened _ hpermit => exact ⟨rfl, hpermit⟩
  | done hfinished =>
      rw [hfinished] at hphase
      cases hphase

theorem StandsAt.of_waiting (h : StandsAt s stage)
    (hphase : s.phase.isWaiting = true) :
    stage.isWaiting = true ∧ stage.attempts = s.attemptsCompleted := by
  cases h with
  | fresh _ hattempts => exact ⟨rfl, hattempts.symm⟩
  | corrected => exact ⟨rfl, rfl⟩
  | scheduled => exact ⟨rfl, rfl⟩
  | opened hflight =>
      rw [SendPhase.isInFlight_eq_false hphase] at hflight
      cases hflight
  | done hfinished =>
      rw [hfinished] at hphase
      cases hphase

theorem StandsAt.waits (h : StandsAt s stage)
    (hphase : s.phase.isWaiting = true) (hphase' : s'.phase.isWaiting = true)
    (hattempts : s'.attemptsCompleted = s.attemptsCompleted)
    (hredirected : s'.regionRedirected = s.regionRedirected)
    (hpermit : s'.pendingRetryPermit = s.pendingRetryPermit) :
    StandsAt s' stage := by
  cases h with
  | fresh _ ha hr hp =>
      exact .fresh hphase' (hattempts.trans ha) (hredirected.trans hr)
        (hpermit.trans hp)
  | corrected _ hr hp =>
      exact hattempts ▸ .corrected hphase' (hredirected.trans hr)
        (hpermit.trans hp)
  | scheduled _ hp =>
      exact hattempts ▸ hredirected ▸ .scheduled hphase' (hpermit.trans hp)
  | opened hflight =>
      rw [SendPhase.isInFlight_eq_false hphase] at hflight
      cases hflight
  | done hfinished =>
      rw [hfinished] at hphase
      cases hphase

/-- A disciplined state. -/
def Disciplined (client : S3Client) (call : SignedSend) (s : SendState) :
    Prop :=
  ∃ stage, StandsAt s stage ∧ Discipline (rules client call) stage s.log

theorem Disciplined.waits (h : Disciplined client call s)
    (hphase : s.phase.isWaiting = true) (hphase' : s'.phase.isWaiting = true)
    (hattempts : s'.attemptsCompleted = s.attemptsCompleted)
    (hredirected : s'.regionRedirected = s.regionRedirected)
    (hpermit : s'.pendingRetryPermit = s.pendingRetryPermit)
    (hlog : s'.log = s.log) :
    Disciplined client call s' := by
  obtain ⟨stage, hstands, hdiscipline⟩ := h
  exact ⟨stage, hstands.waits hphase hphase' hattempts hredirected hpermit,
    hlog ▸ hdiscipline⟩

theorem Disciplined.leaves {e : S3Error} (h : Disciplined client call s)
    (hphase : s.phase.isWaiting = true)
    (hphase' : s'.phase = .finished (.error e))
    (hattempts : s'.attemptsCompleted = s.attemptsCompleted)
    (hlog : s'.log = s.log) : Disciplined client call s' := by
  obtain ⟨stage, hstands, hdiscipline⟩ := h
  obtain ⟨hwaiting, hstage⟩ := hstands.of_waiting hphase
  refine ⟨.done s'.attemptsCompleted false, .done hphase', ?_⟩
  rw [hattempts, ← hstage, hlog]
  exact .leave hdiscipline hwaiting

theorem saturatingAdd32_one {n : Nat}
    (h : n < client.config.retryPolicy.maxAttempts) :
    saturatingAdd32 n 1 = n + 1 :=
  Nat.min_eq_left
    (Nat.le_sub_one_of_lt
      (Nat.lt_of_le_of_lt h client.config.retryPolicy.maxAttempts_u32))

theorem Disciplined.opens {t : Transmission} (h : Disciplined client call s)
    (hphase : s.phase.isWaiting = true) (ht : (rules client call).Timely t)
    (hphase' : s'.phase.isInFlight = true)
    (hattempts : s'.attemptsCompleted = saturatingAdd32 s.attemptsCompleted 1)
    (hredirected : s'.regionRedirected = s.regionRedirected)
    (hpermit : s'.pendingRetryPermit = none)
    (hlog : s'.log =
      .sent t :: .observed
        (.started call.method (saturatingAdd32 s.attemptsCompleted 1)) ::
      (s.pendingRetryPermit.toList.map .permitCommitted ++ s.log)) :
    Disciplined client call s' := by
  obtain ⟨stage, hstands, hdiscipline⟩ := h
  refine ⟨_, .opened hphase' hpermit, ?_⟩
  rw [hlog, hredirected, hattempts]
  cases hstands with
  | fresh _ ha hr hp =>
      rw [ha, hr, hp]
      exact .first hdiscipline ht
  | corrected _ hr hp =>
      rw [saturatingAdd32_one hdiscipline.fits.1, hr, hp]
      exact .resendCorrected hdiscipline ht
  | scheduled _ hp =>
      rw [saturatingAdd32_one hdiscipline.fits.1, hp]
      exact .resend hdiscipline ht
  | opened hflight =>
      rw [SendPhase.isInFlight_eq_false hphase] at hflight
      cases hflight
  | done hfinished =>
      rw [hfinished] at hphase
      cases hphase

theorem discipline_turn (haims : Aims client first s)
    (hfirst : call.target.withQuery client.grammar (canonicalQuery call.query) =
      .ok first)
    (h : Turn client call s label s') (hd : Disciplined client call s) :
    Disciplined client call s' := by
  cases h with
  | checked hphase =>
      have hwaiting : s.phase.isWaiting = true :=
        congrArg SendPhase.isWaiting hphase
      exact hd.waits hwaiting rfl rfl rfl rfl rfl
  | woke hphase =>
      have hwaiting : s.phase.isWaiting = true :=
        congrArg SendPhase.isWaiting hphase
      exact hd.waits hwaiting rfl rfl rfl rfl rfl
  | expired hphase =>
      exact hd.leaves (congrArg SendPhase.isWaiting hphase) rfl rfl rfl
  | timedOut hphase =>
      exact hd.leaves (congrArg SendPhase.isWaiting hphase) rfl rfl rfl
  | refused hphase =>
      exact hd.leaves (congrArg SendPhase.isWaiting hphase) rfl rfl rfl
  | late hphase =>
      exact hd.leaves (congrArg SendPhase.isWaiting hphase) rfl rfl rfl
  | sent hphase hsigned hnow hclock =>
      have ht := fun (t : Transmission) (hc : t.clock < call.deadline)
        (hr : t.timeout =
            min client.config.attemptTimeout (call.deadline - t.clock)) =>
          (⟨hc, hr ▸ Nat.min_le_right _ _, hr ▸ Nat.min_le_left _ _⟩ :
            (rules client call).Timely t)
      exact hd.opens (congrArg SendPhase.isWaiting hphase)
        (ht _ hclock rfl) rfl rfl rfl rfl rfl
  | succeeded hphase =>
      obtain ⟨stage, hstands, hdiscipline⟩ := hd
      obtain ⟨rfl, -⟩ := hstands.of_inFlight hphase
      exact ⟨_, .done rfl, .succeed hdiscipline⟩
  | reading hphase hstays hclock hnext =>
      obtain ⟨stage, hstands, hdiscipline⟩ := hd
      obtain ⟨rfl, hpermit⟩ := hstands.of_inFlight hphase
      exact ⟨_, .opened hnext hpermit, hdiscipline⟩
  | corrected hphase hstays hclock hcorrection htarget =>
      obtain ⟨stage, hstands, hdiscipline⟩ := hd
      obtain ⟨rfl, hpermit⟩ :=
        hstands.of_inFlight (congrArg SendPhase.isInFlight hphase)
      obtain ⟨hunturned, -, _, -, -, hreplayable, hattempts, -⟩ :=
        correction_eq hcorrection
      have hunturned : s.regionRedirected = false := hunturned
      rw [hunturned] at hdiscipline
      exact ⟨_, .corrected rfl rfl hpermit,
        .correct hdiscipline hreplayable hattempts⟩
  | strayed hphase hstrays hcorrection htarget =>
      obtain ⟨stage, hstands, hdiscipline⟩ := hd
      obtain ⟨rfl, -⟩ :=
        hstands.of_inFlight (congrArg SendPhase.isInFlight hphase)
      obtain ⟨hunturned, hregion, service, hservice, rfl, -⟩ :=
        correction_eq hcorrection
      have hunturned : s.regionRedirected = false := hunturned
      refine ⟨_, .done rfl, .stray hdiscipline ?_⟩
      intro hcorrects
      obtain ⟨target, hok⟩ := hcorrects first hfirst _ service hservice hregion
      cases haims with
      | configured _ hat => cases hok.symm.trans (hat ▸ htarget)
      | corrected hturned => cases hturned.symm.trans hunturned
  | stopped hphase =>
      obtain ⟨stage, hstands, hdiscipline⟩ := hd
      obtain ⟨rfl, -⟩ := hstands.of_inFlight hphase
      exact ⟨_, .done rfl, .fail hdiscipline⟩
  | scheduled hphase hstays hdecided hclock hreplayable hnever hattempts
      helapsed hcost =>
      obtain ⟨stage, hstands, hdiscipline⟩ := hd
      obtain ⟨rfl, -⟩ := hstands.of_inFlight hphase
      exact ⟨_, .scheduled rfl rfl,
        .schedule hdiscipline hreplayable hattempts hnever hcost⟩

theorem disciplined_initial (started : Instant) :
    Disciplined client call
      (initial.initialAt client call started first .head) :=
  ⟨.fresh, .fresh rfl rfl rfl rfl, .start⟩

/-- The loop knows where it aims, and its log keeps to the discipline. -/
theorem kept_step {label : SendLabel}
    (hfirst : call.target.withQuery client.grammar (canonicalQuery call.query) =
      .ok first) (hstep : step client call s label = some s')
    (hs : Aims client first s ∧ Disciplined client call s) :
    Aims client first s' ∧ Disciplined client call s' :=
  ⟨aims_turn (step_turn hstep) hs.1,
    discipline_turn hs.1 hfirst (step_turn hstep) hs.2⟩

theorem kept_initial
    (hfirst : call.target.withQuery client.grammar (canonicalQuery call.query) =
      .ok first) (started : Instant) :
    Aims client first (initial client call started) ∧
      Disciplined client call (initial client call started) := by
  rw [initial_eq hfirst]
  exact ⟨aims_initial started, disciplined_initial started⟩

/-- **The loop refines the discipline.** -/
theorem disciplined_of_reaches {started : Instant} {labels : List SendLabel}
    (h : Reaches client call started labels s) : Disciplined client call s := by
  cases hfirst :
      call.target.withQuery client.grammar (canonicalQuery call.query) with
  | error e =>
      rw [(reaches_of_error hfirst h).2]
      exact ⟨_, .done rfl, .leave .start rfl⟩
  | ok first =>
      exact (Lib.exec_invariant (kept_step hfirst) h
        (kept_initial hfirst started)).2

/-! ## The body -/

/-- A one-shot body whose stream is gone. -/
def isTaken (body : PreparedBody) : Bool :=
  match body.source with
  | .oneShot none => true
  | _ => false

def sentTwice : S3Error :=
  S3Error.unsupported "a non-replayable upload body cannot be sent twice"

theorem requestBody_sentTwice {body : PreparedBody}
    {opened : Option (List StreamEvent)}
    (h : (body.requestBody opened).1 = .error sentTwice) :
    isTaken body = true := by
  obtain ⟨source, length, bounded, sha256⟩ := body
  cases source with
  | bytes buffer => cases h
  | fileSnapshot snapshot =>
      cases opened with
      | none => cases congrArg S3Error.category (Except.error.inj h)
      | some items => cases h
  | oneShot stream =>
      cases stream with
      | none => rfl
      | some items => cases h

theorem requestBody_replayable {body : PreparedBody}
    (opened : Option (List StreamEvent)) (h : body.isReplayable = true) :
    (body.requestBody opened).2 = body := by
  obtain ⟨source, length, bounded, sha256⟩ := body
  cases source with
  | bytes buffer => rfl
  | fileSnapshot snapshot =>
      cases opened with
      | none => rfl
      | some items => rfl
  | oneShot stream => cases h

theorem signedRequest_body {crypto : Crypto} {env : SigningEnv}
    {input : SignedRequestInput}
    (h : input.body.all PreparedBody.isReplayable = true) :
    (signedRequest crypto env input).2 = input.body := by
  rw [signedRequest]
  split
  · rfl
  · split
    · next hnone => exact hnone.symm
    · next body hsome =>
        rw [hsome] at h
        have hsame := requestBody_replayable env.opened h
        split
        · next e left heq =>
            rw [heq] at hsame
            exact (congrArg some hsame).trans hsome.symm
        · next transport left heq =>
            rw [heq] at hsame
            exact (congrArg some hsame).trans hsome.symm

/-- The body is the caller's until it is sent, and always when it can be
replayed. -/
structure KeepsBody (call : SignedSend) (s : SendState) : Prop where
  replayable : call.isReplayable = true → s.body = call.body
  unsent : s.phase.isWaiting = true → s.attemptsCompleted = 0 →
    s.body = call.body

theorem keepsBody_turn (h : Turn client call s label s')
    (hk : KeepsBody call s) : KeepsBody call s' := by
  have hsigned :
      ∀ {answer : SigningEnv} {result : Except S3Error HttpRequest}
        {body : Option PreparedBody},
      signedRequest client.crypto answer (s.signingInput client call) =
        (result, body) →
        call.isReplayable = true → body = call.body := by
    intro answer result body hsigned hreplayable
    have hinput : (s.signingInput client call).body = call.body :=
      hk.replayable hreplayable
    have hsame :=
      @signedRequest_body client.crypto answer (s.signingInput client call)
      (by rw [hinput]; exact hreplayable)
    rw [hsigned] at hsame
    exact hsame.trans hinput
  cases h with
  | checked hphase =>
      exact ⟨hk.replayable,
        fun _ => hk.unsent (congrArg SendPhase.isWaiting hphase)⟩
  | expired => exact ⟨hk.replayable, nofun⟩
  | timedOut => exact ⟨hk.replayable, nofun⟩
  | refused hphase hrefused => exact ⟨hsigned hrefused, nofun⟩
  | late hphase hlate => exact ⟨hsigned hlate, nofun⟩
  | sent hphase hsent => exact ⟨hsigned hsent, nofun⟩
  | woke hphase =>
      exact ⟨hk.replayable,
        fun _ => hk.unsent (congrArg SendPhase.isWaiting hphase)⟩
  | succeeded => exact ⟨hk.replayable, nofun⟩
  | @reading _ _ phase _ _ _ hnext =>
      refine ⟨hk.replayable, fun hwaiting => ?_⟩
      rw [SendPhase.isInFlight_eq_false hwaiting] at hnext
      cases hnext
  | corrected hphase _ _ hcorrection =>
      obtain ⟨-, -, _, -, -, hreplayable, -⟩ := correction_eq hcorrection
      exact ⟨hk.replayable, fun _ _ => hk.replayable hreplayable⟩
  | strayed => exact ⟨hk.replayable, nofun⟩
  | stopped => exact ⟨hk.replayable, nofun⟩
  | scheduled _ _ _ _ hreplayable =>
      exact ⟨hk.replayable, fun _ _ => hk.replayable hreplayable⟩

theorem body_of_reaches {started : Instant} {labels : List SendLabel}
    (h : Reaches client call started labels s) (hphase : s.phase = .signing) :
    s.body = call.body := by
  have hk : KeepsBody call s := by
    refine Lib.exec_invariant
      (fun hstep => keepsBody_turn (step_turn hstep)) h ?_
    rw [initial]
    split
    · refine ⟨fun _ => rfl, ?_⟩
      intro hwaiting
      cases hwaiting
    · exact ⟨fun _ => rfl, fun _ _ => rfl⟩
  have hwaiting : s.phase.isWaiting = true :=
    congrArg SendPhase.isWaiting hphase
  obtain ⟨stage, hstands, hdiscipline⟩ := disciplined_of_reaches h
  cases hstands with
  | fresh _ hattempts => exact hk.unsent hwaiting hattempts
  | corrected => exact hk.replayable hdiscipline.fits.2
  | scheduled => exact hk.replayable hdiscipline.fits.2
  | opened hflight =>
      rw [hphase] at hflight
      cases hflight
  | done hfinished => cases hfinished.symm.trans hphase

/-! ## The laws -/

/-- **How often one operation is sent, when, and after what.** -/
theorem sendSigned_attempts {started : Instant} {labels : List SendLabel}
    (h : Reaches client call started labels s) :
    (transmissions s.log).length ≤ client.config.retryPolicy.maxAttempts ∧
      (call.isReplayable = false → (transmissions s.log).length ≤ 1) ∧
      (call.body.any isTaken = false → s.phase = .signing →
        ∀ body opened, s.body = some body →
        (body.requestBody opened).1 ≠ .error sentTwice) ∧
      s.log.countP (SendEvent.isOf .regionRedirected) ≤ 1 ∧
      Lib.Justified (Discipline.Allowed (rules client call)) s.log := by
  obtain ⟨stage, hstands, hdiscipline⟩ := disciplined_of_reaches h
  have hbound : stage.attempts ≤ client.config.retryPolicy.maxAttempts ∧
      (stage.attempts ≤ 1 ∨ call.isReplayable = true) := by
    have hfits := hdiscipline.fits
    cases stage with
    | fresh => exact ⟨Nat.zero_le _, Or.inl (Nat.zero_le _)⟩
    | corrected n => exact ⟨hfits.1.le, Or.inr hfits.2⟩
    | scheduled n redirected permit => exact ⟨hfits.1.le, Or.inr hfits.2⟩
    | opened n redirected => exact hfits
    | done n success => exact hfits
  have hcorrections : stage.corrections ≤ 1 := by
    cases stage with
    | fresh => exact Nat.zero_le _
    | corrected n => exact le_rfl
    | scheduled n redirected permit => exact Bool.toNat_le redirected
    | opened n redirected => exact Bool.toNat_le redirected
    | done n success => exact le_rfl
  rw [hdiscipline.transmissions_length]
  refine ⟨hbound.1, ?_, ?_, hdiscipline.corrections_le.trans hcorrections,
    hdiscipline.justified⟩
  · intro honce
    refine hbound.2.resolve_right fun hreplayable => ?_
    rw [honce] at hreplayable
    cases hreplayable
  · intro huntaken hphase body opened hbody htwice
    rw [← body_of_reaches h hphase, hbody] at huntaken
    have htaken := requestBody_sentTwice htwice
    exact Bool.false_ne_true (huntaken.symm.trans htaken)

/-- **What an observer sees of one operation.** -/
theorem sendSigned_lifecycle {started : Instant} {labels : List SendLabel}
    {result : Except S3Error SuccessfulResponse}
    (hcorrects : ∀ first,
      call.target.withQuery client.grammar (canonicalQuery call.query) =
        .ok first →
      ∀ region authority,
        redirectedAwsAuthority client.config.endpoint.url region =
          some authority →
        isRegion region = true →
          ∃ target,
            first.withAuthority client.grammar
              (client.config.serviceAuthority authority) = .ok target)
    (h : Reaches client call started labels s)
    (hfinished : s.phase = .finished result) :
    ∃ attempts, Attempt.Numbered attempts ∧
    (∀ a ∈ attempts.dropLast, a.GoesOn) ∧
      observations s.log = attempts.flatMap Attempt.events ∧
      (observations s.log).countP
        (fun event => event.kind = .regionRedirected) ≤ 1 ∧
      (result.isOk = true ↔ ∃ a, attempts.getLast? = some a ∧
        a.outcome.kind = .attemptSucceeded) := by
  obtain ⟨stage, hstands, hdiscipline⟩ := disciplined_of_reaches h
  have hcount :
      (observations s.log).countP
          (fun event => event.kind = .regionRedirected) ≤ 1 := by
    rw [Discipline.countP_observations]
    exact (sendSigned_attempts h).2.2.2.1
  have htold := hdiscipline.told hcorrects
  cases hstands with
  | done hphase =>
      cases hfinished.symm.trans hphase
      obtain ⟨attempts, hnumbered, hgoes, hevents, hsuccess⟩ := htold
      exact ⟨attempts, hnumbered, hgoes, hevents, hcount, hsuccess⟩
  | fresh hwaiting =>
      rw [hfinished] at hwaiting
      cases hwaiting
  | corrected hwaiting =>
      rw [hfinished] at hwaiting
      cases hwaiting
  | scheduled hwaiting =>
      rw [hfinished] at hwaiting
      cases hwaiting
  | opened hflight =>
      rw [hfinished] at hflight
      cases hflight

end Refinement

/-! The sample is sent twice, to two regions, and succeeds. -/

theorem sendSigned_attempts_redirected : ∃ s, Reaches sampleClient sampleSend 0
    (sampleRound ++ ([.respond 0 (.ok sampleRedirect) quietEnv] ++ sampleRound))
      s ∧
      (transmissions s.log).length = 2 ∧
      s.log.countP (SendEvent.isOf .regionRedirected) ≤ 1 ∧
      Lib.Justified
        (Discipline.Allowed (rules sampleClient sampleSend)) s.log := by
  obtain ⟨s, hs, -, hregions⟩ := sample_redirected
  obtain ⟨-, -, -, hcorrections, hjustified⟩ := sendSigned_attempts hs
  refine ⟨s, hs, ?_, hcorrections, hjustified⟩
  rw [← List.length_map Transmission.signingRegion, hregions]
  rfl

def sampleSuccess : ResponseHead := ⟨200, HeaderMap.new, none⟩

theorem sample_succeeds {s : SendState} (hphase : s.phase = .sending) :
    Lib.exec (step sampleClient sampleSend) s
      [.respond 0 (.ok sampleSuccess) quietEnv] =
      some ((s.after 0).succeed sampleSend (.streaming sampleSuccess)) := by
  have hstep :
      step sampleClient sampleSend s (.respond 0 (.ok sampleSuccess) quietEnv) =
      some ((s.after 0).succeed sampleSend (.streaming sampleSuccess)) := by
    rw [step.eq_def, hphase]
    rfl
  rw [Lib.exec, hstep]
  rfl

theorem sample_corrects (first : EndpointUrl) {region authority : Str}
    (hauthority : redirectedAwsAuthority sampleConfig.endpoint.url region =
      some authority)
    (hregion : isRegion region = true) :
    ∃ target,
      first.withAuthority permissive (sampleConfig.serviceAuthority authority) =
        .ok target := by
  obtain ⟨-, variant, suffix, hsuffix, rfl, -⟩ :=
    redirectedAwsAuthority_eq hauthority
  have hchars := @awsHost_chars region variant suffix hregion hsuffix
  have huser :
      '@' ∉ Endpoint.awsHost (Endpoint.variantPrefix variant) region suffix :=
        fun hmem =>
    hostChar_ne (hchars _ hmem) (by decide) rfl
  have hhost :
      (Authority.host
        (Endpoint.awsHost
          (Endpoint.variantPrefix variant) region suffix)).isEmpty =
      false := by
    rw [Authority.host_eq hchars, Endpoint.awsHost]
    cases variant with
    | standard => rfl
    | dualStack => rfl
    | fips => rfl
    | fipsDualStack => rfl
  have hstyle :
      sampleConfig.serviceAuthority
        (Endpoint.awsHost (Endpoint.variantPrefix variant) region suffix) =
      Endpoint.awsHost (Endpoint.variantPrefix variant) region suffix := rfl
  have hparts :
      first.withAuthority permissive
        (Endpoint.awsHost (Endpoint.variantPrefix variant) region suffix) =
      EndpointUrl.fromParts permissive first.scheme
        (Endpoint.awsHost (Endpoint.variantPrefix variant) region suffix)
            first.pathAndQuery := by
    rw [EndpointUrl.withAuthority, if_neg (by simp [permissive]),
      if_neg (by rw [hhost]; simp [huser])]
  rw [hstyle, hparts]
  exact ⟨_, rfl⟩

theorem sendSigned_lifecycle_redirected : ∃ s, Reaches sampleClient sampleSend 0
    ((sampleRound ++
      ([.respond 0 (.ok sampleRedirect) quietEnv] ++ sampleRound)) ++
      [.respond 0 (.ok sampleSuccess) quietEnv]) s ∧
      ∃ attempts, Attempt.Numbered attempts ∧
      (∀ a ∈ attempts.dropLast, a.GoesOn) ∧
        observations s.log = attempts.flatMap Attempt.events ∧
        ∃ a, attempts.getLast? = some a ∧
        a.outcome.kind = .attemptSucceeded := by
  obtain ⟨s, hs, hphase, -⟩ := sample_redirected
  have hrun := (Lib.exec_append _ hs).trans (sample_succeeds hphase)
  obtain ⟨attempts, hnumbered, hgoes, hevents, -, hsuccess⟩ :=
    sendSigned_lifecycle
    (fun first _ region authority hauthority hregion =>
      sample_corrects first hauthority hregion) hrun rfl
  exact ⟨_, hrun, attempts, hnumbered, hgoes, hevents, hsuccess.mp rfl⟩

end SendState

end S3Wire
