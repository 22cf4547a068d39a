/-
# `S3Wire.Retry.Policy` — when to try again, and after how long

`src/retry/mod.rs`.  A policy bounds the number of attempts and the time in
which they may begin; the delay before the next one is what the service asked
for, when that fits, and otherwise drawn at random below a ceiling that doubles
from attempt to attempt.

The draw of the random generator is an argument: `fastrand::u64(0..=n)` gives
any number up to `n`, so every number is taken, cut off at `n`.
-/
import S3Wire.Error

namespace S3Wire

/-- `Duration::MAX`, in nanoseconds. -/
def maxDuration : Nat := (2 ^ 64 - 1) * 1000000000 + 999999999

/-- `Duration::saturating_mul`. -/
def saturatingMulDuration (d : Duration) (n : Nat) : Duration :=
  min (d * n) maxDuration

/-- Bounded exponential backoff with full jitter. -/
structure RetryPolicy where
  maxAttempts : Nat
  baseDelay : Duration
  maxDelay : Duration
  maxElapsed : Duration
  maxAttempts_pos : 1 ≤ maxAttempts
  maxAttempts_u32 : maxAttempts < 2 ^ 32
  baseDelay_pos : 0 < baseDelay
  delays : baseDelay ≤ maxDelay
  maxElapsed_pos : 0 < maxElapsed

namespace RetryPolicy

def standard : RetryPolicy where
  maxAttempts := 4
  baseDelay := 100000000
  maxDelay := Duration.fromSecs 10
  maxElapsed := Duration.fromSecs 30
  maxAttempts_pos := by decide
  maxAttempts_u32 := by decide
  baseDelay_pos := by decide
  delays := by decide
  maxElapsed_pos := by decide

/-- A policy whose bounds were checked. -/
def new (maxAttempts : UInt32) (baseDelay maxDelay maxElapsed : Duration) :
    Except S3Error RetryPolicy :=
  if hattempts : maxAttempts.toNat = 0 then
    .error (S3Error.configuration "retry max_attempts must be at least one")
  else if hbase : baseDelay = 0 then
    .error (S3Error.configuration "retry base_delay must be greater than zero")
  else if hdelays : maxDelay < baseDelay then
    .error (S3Error.configuration
      "retry max_delay must not be shorter than base_delay")
  else if helapsed : maxElapsed = 0 then
    .error (S3Error.configuration "retry max_elapsed must be greater than zero")
  else
    .ok
      { maxAttempts := maxAttempts.toNat
        baseDelay := baseDelay
        maxDelay := maxDelay
        maxElapsed := maxElapsed
        maxAttempts_pos := Nat.one_le_iff_ne_zero.mpr hattempts
        maxAttempts_u32 := maxAttempts.toNat_lt
        baseDelay_pos := Nat.pos_of_ne_zero hbase
        delays := not_lt.mp hdelays
        maxElapsed_pos := Nat.pos_of_ne_zero helapsed }

variable (policy : RetryPolicy)

/-- Another attempt may be made. -/
def permitsRetry (classification : RetryClassification)
    (attemptsCompleted : Nat) (elapsed : Duration) :
    Bool :=
  classification ≠ .never && attemptsCompleted < policy.maxAttempts && elapsed <
    policy.maxElapsed

/-- The bound on a delay: it doubles with each attempt, up to the maximum. -/
def delayCeiling (classification : RetryClassification)
    (attemptsCompleted : Nat) : Duration :=
  let base :=
    if classification = .throttled then
      max policy.baseDelay (Duration.fromSecs 1) else policy.baseDelay
  let exponent := min (attemptsCompleted - 1) 31
  min (saturatingMulDuration base (2 ^ exponent)) policy.maxDelay

/-- The delay of a retry: what the service asks, or a draw below the ceiling. -/
def delayFor (classification : RetryClassification) (attemptsCompleted : Nat)
    (elapsed : Duration) (retryAfter : Option Duration) (draw : Nat) :
    Option Duration :=
  if attemptsCompleted = 0 ∨ policy.maxAttempts ≤ attemptsCompleted ∨
      policy.maxElapsed ≤ elapsed ∨
      classification = .never then
    none
  else
    let remaining := policy.maxElapsed - elapsed
    match retryAfter with
    | some delay => if delay ≤ remaining then some delay else none
    | none =>
        let ceiling :=
          min (policy.delayCeiling classification attemptsCompleted) remaining
        let ceilingNanos := min ceiling (2 ^ 64 - 1)
        some (min draw ceilingNanos)

/-- Another attempt is due within the elapsed-time bound when its delay is
over. -/
theorem delayFor_le {classification : RetryClassification}
    {attemptsCompleted : Nat} {elapsed delay : Duration}
    {retryAfter : Option Duration} {draw : Nat}
    (h : policy.delayFor classification attemptsCompleted elapsed retryAfter
      draw = some delay) :
    elapsed + delay ≤ policy.maxElapsed := by
  rw [delayFor] at h
  split at h
  · cases h
  · next hguard =>
      rw [not_or, not_or, not_or, not_le, not_le] at hguard
      have helapsed : elapsed ≤ policy.maxElapsed := hguard.2.2.1.le
      cases retryAfter with
      | some asked =>
          dsimp only at h
          split at h
          · next hfits =>
              cases h
              exact Nat.add_le_of_le_sub' helapsed hfits
          · cases h
      | none =>
          cases h
          refine Nat.add_le_of_le_sub' helapsed ?_
          exact (Nat.min_le_right _ _).trans
            ((Nat.min_le_left _ _).trans (Nat.min_le_right _ _))

/-! ## The ceiling -/

/-- What the first delay is drawn below: a second at least when the service
throttles. -/
def backoffBase (classification : RetryClassification) : Duration :=
  if classification = .throttled then max policy.baseDelay (Duration.fromSecs 1)
  else policy.baseDelay

theorem delayCeiling_eq (classification : RetryClassification)
    (attemptsCompleted : Nat) :
    policy.delayCeiling classification attemptsCompleted =
      min (saturatingMulDuration (policy.backoffBase classification)
        (2 ^ min (attemptsCompleted - 1) 31))
        policy.maxDelay := rfl

theorem backoffBase_le_throttled (classification : RetryClassification) :
    policy.backoffBase classification ≤ policy.backoffBase .throttled := by
  have hthrottled :
    policy.backoffBase .throttled =
      max policy.baseDelay (Duration.fromSecs 1) := rfl
  by_cases h : classification = .throttled
  · rw [h]
  · rw [hthrottled, backoffBase, if_neg h]
    exact le_max_left _ _

theorem delayCeiling_le_maxDelay (classification : RetryClassification)
    (attemptsCompleted : Nat) :
    policy.delayCeiling classification attemptsCompleted ≤ policy.maxDelay := by
  rw [delayCeiling_eq]
  exact min_le_right _ _

theorem delayCeiling_le_pow (classification : RetryClassification)
    (attemptsCompleted : Nat) :
    policy.delayCeiling classification attemptsCompleted ≤
      policy.backoffBase classification * 2 ^ (attemptsCompleted - 1) := by
  have hpow :
      2 ^ min (attemptsCompleted - 1) 31 ≤ 2 ^ (attemptsCompleted - 1) :=
    Nat.pow_le_pow_right (by decide) (min_le_left _ _)
  rw [delayCeiling_eq]
  calc min (saturatingMulDuration _ _) policy.maxDelay
    _ ≤ saturatingMulDuration (policy.backoffBase classification)
        (2 ^ min (attemptsCompleted - 1) 31) :=
        min_le_left _ _
    _ ≤ policy.backoffBase classification * 2 ^ min
      (attemptsCompleted - 1) 31 := min_le_left _ _
    _ ≤ policy.backoffBase classification * 2 ^ (attemptsCompleted - 1) :=
      Nat.mul_le_mul_left _ hpow

theorem saturatingMulDuration_mono {d d' : Duration} {n n' : Nat} (hd : d ≤ d')
    (hn : n ≤ n') :
    saturatingMulDuration d n ≤ saturatingMulDuration d' n' :=
  min_le_min_right _ (Nat.mul_le_mul hd hn)

theorem delayCeiling_mono (classification : RetryClassification) {n n' : Nat}
    (h : n ≤ n') :
    policy.delayCeiling classification n ≤
      policy.delayCeiling classification n' := by
  have hexponent : min (n - 1) 31 ≤ min (n' - 1) 31 :=
    min_le_min_right _ (Nat.sub_le_sub_right h 1)
  rw [delayCeiling_eq, delayCeiling_eq]
  refine min_le_min_right _ (saturatingMulDuration_mono le_rfl ?_)
  exact Nat.pow_le_pow_right (by decide) hexponent

theorem delayCeiling_le_throttled (classification : RetryClassification)
    (attemptsCompleted : Nat) :
    policy.delayCeiling classification attemptsCompleted ≤
      policy.delayCeiling .throttled attemptsCompleted := by
  rw [delayCeiling_eq, delayCeiling_eq]
  exact min_le_min_right _
    (saturatingMulDuration_mono
      (policy.backoffBase_le_throttled classification) le_rfl)

/-! ## When a delay is due -/

/-- An attempt is over, and the policy permits another. -/
def Due (classification : RetryClassification) (attemptsCompleted : Nat)
    (elapsed : Duration) : Prop :=
  1 ≤ attemptsCompleted ∧
    policy.permitsRetry classification attemptsCompleted elapsed = true

instance (classification : RetryClassification) (attemptsCompleted : Nat)
    (elapsed : Duration) :
    Decidable (policy.Due classification attemptsCompleted elapsed) :=
  inferInstanceAs (Decidable (_ ∧ _))

variable {policy} {classification : RetryClassification}
  {attemptsCompleted : Nat} {elapsed : Duration}

/-- The guard of `delayFor` is the predicate `permitsRetry`, and one attempt at
least. -/
theorem due_iff :
    policy.Due classification attemptsCompleted elapsed ↔
      ¬(attemptsCompleted = 0 ∨ policy.maxAttempts ≤ attemptsCompleted ∨
        policy.maxElapsed ≤ elapsed ∨
        classification = .never) := by
  rw [Due, permitsRetry, Bool.and_eq_true, Bool.and_eq_true, decide_eq_true_eq,
    decide_eq_true_eq,
    decide_eq_true_eq, not_or, not_or, not_or, not_le, not_le]
  constructor
  · rintro ⟨hone, ⟨hclass, hattempts⟩, helapsed⟩
    exact ⟨Nat.one_le_iff_ne_zero.mp hone, hattempts, helapsed, hclass⟩
  · rintro ⟨hzero, hattempts, helapsed, hclass⟩
    exact ⟨Nat.one_le_iff_ne_zero.mpr hzero, ⟨hclass, hattempts⟩, helapsed⟩

theorem delayFor_of_not_due
    (h : ¬policy.Due classification attemptsCompleted elapsed)
    (retryAfter : Option Duration) (draw : Nat) :
    policy.delayFor classification attemptsCompleted elapsed retryAfter draw =
      none := by
  rw [due_iff, not_not] at h
  rw [delayFor, if_pos h]

theorem delayFor_asked (h : policy.Due classification attemptsCompleted elapsed)
    (asked : Duration) (draw : Nat) :
    policy.delayFor classification attemptsCompleted elapsed (some asked) draw =
      if asked ≤ policy.maxElapsed - elapsed then some asked else none := by
  rw [delayFor, if_neg (due_iff.mp h)]

/-- Otherwise the delay is drawn below the ceiling and the time that remains. -/
theorem delayFor_drawn (h : policy.Due classification attemptsCompleted elapsed)
    (draw : Nat) :
    policy.delayFor classification attemptsCompleted elapsed none draw =
      some (min draw
        (min (min (policy.delayCeiling classification attemptsCompleted)
        (policy.maxElapsed - elapsed)) (2 ^ 64 - 1))) := by
  rw [delayFor, if_neg (due_iff.mp h)]

theorem delayFor_drawn_le {delay : Duration} {draw : Nat}
    (h : policy.delayFor classification attemptsCompleted elapsed none draw =
      some delay) :
    delay ≤ policy.delayCeiling classification attemptsCompleted := by
  by_cases hdue : policy.Due classification attemptsCompleted elapsed
  · rw [delayFor_drawn hdue, Option.some_inj] at h
    rw [← h]
    exact (min_le_right _ _).trans ((min_le_left _ _).trans (min_le_left _ _))
  · rw [delayFor_of_not_due hdue] at h
    cases h

/-- The longest delay that the policy may choose: what the service asks for, and
otherwise the ceiling, of the time that remains. -/
def longestDelay (policy : RetryPolicy) (attemptsCompleted : Nat)
    (elapsed : Duration) :
    Option Duration → Duration
  | some asked => asked
  | none =>
      min (policy.delayCeiling .throttled attemptsCompleted)
        (policy.maxElapsed - elapsed)

theorem delayFor_le_longest (policy : RetryPolicy)
    {retryAfter : Option Duration} {delay : Duration} {draw : Nat}
    (h : policy.delayFor classification attemptsCompleted elapsed retryAfter
      draw = some delay) :
    delay ≤ policy.longestDelay attemptsCompleted elapsed retryAfter := by
  cases retryAfter with
  | some asked =>
      by_cases hdue : policy.Due classification attemptsCompleted elapsed
      · rw [delayFor_asked hdue] at h
        split at h
        · cases h
          exact le_rfl
        · cases h
      · rw [delayFor_of_not_due hdue] at h
        cases h
  | none =>
      have hremaining := policy.delayFor_le h
      have hceiling := (delayFor_drawn_le h).trans
        (policy.delayCeiling_le_throttled classification attemptsCompleted)
      exact le_min hceiling (Nat.le_sub_of_add_le' hremaining)

end RetryPolicy

end S3Wire
