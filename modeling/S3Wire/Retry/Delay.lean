/-
# `S3Wire.Retry.Delay` — the delay on machine words

`src/retry/mod.rs` once more, as the machine computes it: attempts are counted
in 32 bits, a `std::time::Duration` is a `Lib.Timespan`, and every shift,
product and difference is checked at its width, so that a `none` outside is a
panic.  There is none: a policy on words denotes one of `RetryPolicy`
(`Denotes`), and each function returns what the one there does on the numbers of
nanoseconds (`delayCeiling_denotes`, `delayFor_denotes`).
-/
import S3Wire.Lib.Timespan
import S3Wire.Retry.Policy

namespace S3Wire

open Lib (Timespan)

/-- `RetryPolicy`, on machine words. -/
structure PolicyWords where
  maxAttempts : UInt32
  baseDelay : Timespan
  maxDelay : Timespan
  maxElapsed : Timespan

namespace PolicyWords

/-- `RetryPolicy::new` -/
def new (maxAttempts : UInt32) (baseDelay maxDelay maxElapsed : Timespan) :
    Except S3Error PolicyWords :=
  if maxAttempts = 0 then
    .error (S3Error.configuration "retry max_attempts must be at least one")
  else if baseDelay = Timespan.zero then
    .error (S3Error.configuration "retry base_delay must be greater than zero")
  else if maxDelay < baseDelay then
    .error (S3Error.configuration
      "retry max_delay must not be shorter than base_delay")
  else if maxElapsed = Timespan.zero then
    .error (S3Error.configuration "retry max_elapsed must be greater than zero")
  else
    .ok ⟨maxAttempts, baseDelay, maxDelay, maxElapsed⟩

theorem oneSecond_lt : 1 < 2 ^ 64 := by decide

/-- `Duration::from_secs(1)` -/
def oneSecond : Timespan := ⟨1, 0, oneSecond_lt, Timespan.whole_seconds⟩

variable (policy : PolicyWords)

/-- `RetryPolicy::permits_retry`, on the words. -/
def permitsRetry (classification : RetryClassification)
    (attemptsCompleted : UInt32) (elapsed : Timespan) :
    Bool :=
  classification ≠ .never && attemptsCompleted < policy.maxAttempts && elapsed <
    policy.maxElapsed

/-- `RetryPolicy::delay_ceiling`; `none` where an operation on the words
panics. -/
def delayCeiling (classification : RetryClassification)
    (attemptsCompleted : UInt32) : Option Timespan := do
  let base :=
    if classification = .throttled then max policy.baseDelay oneSecond
    else policy.baseDelay
  -- `saturating_sub(1)`
  let exponent :=
    min (if attemptsCompleted = 0 then 0 else attemptsCompleted - 1) 31
  let multiplier ← Lib.shiftLeft32 1 exponent
  let product ← base.saturatingMul multiplier
  return min product policy.maxDelay

/-- `u64::try_from(..).unwrap_or(u64::MAX)` -/
def nanosOrMax (n : Nat) : UInt64 :=
  if n < 2 ^ 64 then UInt64.ofNat n else 18446744073709551615

/-- `RetryPolicy::delay_for`, on the words. -/
def delayFor (classification : RetryClassification) (attemptsCompleted : UInt32)
    (elapsed : Timespan) (retryAfter : Option Timespan) (draw : UInt64) :
    Option (Option Timespan) :=
  if attemptsCompleted = 0 ∨ policy.maxAttempts ≤ attemptsCompleted ∨
      policy.maxElapsed ≤ elapsed ∨
      classification = .never then
    some none
  else do
    let remaining ← policy.maxElapsed.saturatingSub elapsed
    match retryAfter with
    | some delay => return if delay ≤ remaining then some delay else none
    | none =>
        let delayCeiling ← policy.delayCeiling classification attemptsCompleted
        let ceiling := min delayCeiling remaining
        let ceilingNanos := nanosOrMax (← ceiling.asNanos)
        -- `fastrand::u64(0..=ceiling_nanos)`
        let nanos := min draw ceilingNanos
        let delay ← Timespan.fromNanos nanos
        return some delay

/-! ## The numbers the words stand for -/

/-- The policy of the numbers that the words are. -/
structure Denotes (words : PolicyWords) (policy : RetryPolicy) : Prop where
  maxAttempts : policy.maxAttempts = words.maxAttempts.toNat
  baseDelay : policy.baseDelay = words.baseDelay.value
  maxDelay : policy.maxDelay = words.maxDelay.value
  maxElapsed : policy.maxElapsed = words.maxElapsed.value

theorem new_denotes {maxAttempts : UInt32}
    {baseDelay maxDelay maxElapsed : Timespan} {words : PolicyWords}
    (h : new maxAttempts baseDelay maxDelay maxElapsed = .ok words) :
    words = ⟨maxAttempts, baseDelay, maxDelay, maxElapsed⟩ ∧
      ∃ policy,
        RetryPolicy.new maxAttempts baseDelay.value maxDelay.value
          maxElapsed.value = .ok policy ∧
        Denotes words policy := by
  rw [new] at h
  split at h
  · cases h
  · next hattempts =>
      split at h
      · cases h
      · next hbase =>
          split at h
          · cases h
          · next hdelays =>
              split at h
              · cases h
              · next helapsed =>
                  cases h
                  refine ⟨rfl, ?_⟩
                  have hattempts : ¬maxAttempts.toNat = 0 := by
                    intro hzero
                    exact hattempts (UInt32.toNat_inj.mp hzero)
                  rw [Timespan.eq_zero_iff] at hbase helapsed
                  rw [Timespan.lt_iff] at hdelays
                  rw [RetryPolicy.new, dif_neg hattempts, dif_neg hbase,
                    dif_neg hdelays, dif_neg helapsed]
                  exact ⟨_, rfl, rfl, rfl, rfl, rfl⟩

variable {words : PolicyWords} {policy : RetryPolicy}

theorem exponent_toNat (n : UInt32) :
    (min (if n = 0 then 0 else n - 1) 31).toNat = min (n.toNat - 1) 31 := by
  have hsub : (if n = 0 then 0 else n - 1 : UInt32).toNat = n.toNat - 1 := by
    split
    · next hzero =>
        rw [hzero]
        rfl
    · next hzero =>
        have hone : 1 ≤ n := by
          rw [UInt32.le_iff_toNat_le, UInt32.toNat_one]
          exact Nat.one_le_iff_ne_zero.mpr fun h =>
            hzero (UInt32.toNat_inj.mp h)
        rw [UInt32.toNat_sub_of_le _ _ hone, UInt32.toNat_one]
  rw [Lib.toNat_min32, hsub]
  rfl

theorem delayCeiling_denotes (h : Denotes words policy)
    (classification : RetryClassification) (n : UInt32) :
    Timespan.Counts (words.delayCeiling classification n)
      (policy.delayCeiling classification n.toNat) := by
  have hbase :
      (if classification = .throttled then max words.baseDelay oneSecond
        else words.baseDelay).value =
      policy.backoffBase classification := by
    rw [RetryPolicy.backoffBase, h.baseDelay]
    split
    · exact Timespan.value_max _ _
    · rfl
  have hexponent := exponent_toNat n
  have hle : (min (if n = 0 then 0 else n - 1) 31 : UInt32).toNat ≤ 31 :=
    hexponent.trans_le (min_le_right _ _)
  obtain ⟨multiplier, hshift, hpow⟩ := Lib.shiftLeft32_one hle
  obtain ⟨product, hmul, hproduct⟩ := Timespan.saturatingMul_counts
    (if classification = .throttled then max words.baseDelay oneSecond
      else words.baseDelay) multiplier
  refine ⟨min product words.maxDelay, ?_, ?_⟩
  · rw [delayCeiling, hshift]
    dsimp only [Option.bind_eq_bind, Option.bind_some]
    rw [hmul]
    rfl
  · rw [Timespan.value_min, hproduct, hbase, hpow, hexponent,
      RetryPolicy.delayCeiling_eq, h.maxDelay]
    rfl

theorem due_denotes (h : Denotes words policy)
    (classification : RetryClassification) (n : UInt32) (elapsed : Timespan) :
    1 ≤ n.toNat ∧ words.permitsRetry classification n elapsed = true ↔
      policy.Due classification n.toNat elapsed.value := by
  rw [RetryPolicy.Due, permitsRetry, RetryPolicy.permitsRetry, h.maxAttempts,
    h.maxElapsed]
  rfl

theorem nanosOrMax_toNat (n : Nat) :
    (nanosOrMax n).toNat = min n (2 ^ 64 - 1) := by
  have hmax : (18446744073709551615 : UInt64).toNat = 2 ^ 64 - 1 := by
    decide +kernel
  rw [nanosOrMax]
  split
  · next h =>
      rw [UInt64.toNat_ofNat_of_lt' h]
      exact (min_eq_left (Nat.le_sub_one_of_lt h)).symm
  · next h =>
      have hlt : 2 ^ 64 - 1 < 2 ^ 64 :=
        Nat.sub_lt (Nat.two_pow_pos 64) Nat.one_pos
      exact hmax.trans (min_eq_right (hlt.trans_le (Nat.not_lt.mp h)).le).symm

theorem delayFor_denotes (h : Denotes words policy)
    (classification : RetryClassification) (n : UInt32) (elapsed : Timespan)
    (retryAfter : Option Timespan) (draw : UInt64) :
    ∃ answer, words.delayFor classification n elapsed retryAfter draw =
      some answer ∧
      answer.map Timespan.value =
        policy.delayFor classification n.toNat elapsed.value
          (retryAfter.map Timespan.value) draw.toNat := by
  have hguard :
      (n = 0 ∨ words.maxAttempts ≤ n ∨ words.maxElapsed ≤ elapsed ∨
        classification = .never) ↔
      ¬policy.Due classification n.toNat elapsed.value := by
    rw [RetryPolicy.due_iff, not_not, h.maxAttempts, h.maxElapsed,
      ← Timespan.le_iff,
      ← UInt32.le_iff_toNat_le, ← UInt32.toNat_inj, UInt32.toNat_zero]
  rw [delayFor]
  by_cases hdue : policy.Due classification n.toNat elapsed.value
  · rw [if_neg (hguard.not.mpr (not_not.mpr hdue))]
    obtain ⟨remaining, hsub, hremaining⟩ :=
      Timespan.saturatingSub_counts words.maxElapsed elapsed
    rw [hsub]
    dsimp only [Option.bind_eq_bind, Option.bind_some]
    rw [← h.maxElapsed] at hremaining
    cases retryAfter with
    | some asked =>
        refine ⟨_, rfl, ?_⟩
        rw [Option.map_some, RetryPolicy.delayFor_asked hdue, ← hremaining]
        by_cases hfits : asked ≤ remaining
        · rw [if_pos hfits, if_pos (Timespan.le_iff.mp hfits)]
          rfl
        · rw [if_neg hfits, if_neg (Timespan.le_iff.not.mp hfits)]
          rfl
    | none =>
        obtain ⟨ceiling, hceiling, hvalue⟩ :=
          delayCeiling_denotes h classification n
        rw [Option.map_none, RetryPolicy.delayFor_drawn hdue, ← hremaining,
          ← hvalue, ← Timespan.value_min,
          ← nanosOrMax_toNat, ← Lib.toNat_min64]
        obtain ⟨delay, hdelay, hcount⟩ :=
          Timespan.fromNanos_counts
            (min draw (nanosOrMax (min ceiling remaining).value))
        refine ⟨some delay, ?_, ?_⟩
        · rw [hceiling, Option.bind_some, Timespan.asNanos_eq, Option.bind_some,
            hdelay, Option.bind_some]
          rfl
        · rw [Option.map_some, hcount]
  · rw [if_pos (hguard.mpr hdue), RetryPolicy.delayFor_of_not_due hdue]
    exact ⟨none, rfl, rfl⟩

/-! ## The delays of an accepted policy -/

/-- The first ceiling of a policy: a second at least when the service
throttles. -/
def base (words : PolicyWords) (classification : RetryClassification) : Nat :=
  if classification = .throttled then max words.baseDelay.value 1000000000
  else words.baseDelay.value

theorem base_denotes (h : Denotes words policy)
    (classification : RetryClassification) :
    policy.backoffBase classification = words.base classification := by
  rw [RetryPolicy.backoffBase, base, h.baseDelay]
  rfl

section Answers

variable (h : Denotes words policy) {classification : RetryClassification}
  {attempts : UInt32} {elapsed : Timespan}
  {answer : Option Timespan} {draw : UInt64}

include h

theorem answer_eq {retryAfter : Option Timespan}
    (hanswer : words.delayFor classification attempts elapsed retryAfter draw =
      some answer) :
    answer.map Timespan.value =
      policy.delayFor classification attempts.toNat elapsed.value
        (retryAfter.map Timespan.value) draw.toNat := by
  obtain ⟨answer', hanswer', hvalue⟩ :=
    delayFor_denotes h classification attempts elapsed retryAfter draw
  rw [hanswer, Option.some_inj] at hanswer'
  rwa [hanswer']

theorem answer_due {retryAfter : Option Timespan} {delay : Timespan}
    (hanswer : words.delayFor classification attempts elapsed retryAfter draw =
      some (some delay)) :
    (1 ≤ attempts.toNat ∧ words.permitsRetry classification attempts elapsed =
      true) ∧
      elapsed.value + delay.value ≤ words.maxElapsed.value := by
  have hvalue := answer_eq h hanswer
  rw [Option.map_some] at hvalue
  constructor
  · rw [due_denotes h]
    by_contra hnot
    rw [RetryPolicy.delayFor_of_not_due hnot] at hvalue
    cases hvalue
  · have hle := policy.delayFor_le hvalue.symm
    rwa [h.maxElapsed] at hle

/-- What the service asked for is granted exactly when a delay is due and it
fits. -/
theorem answer_asked {asked : Timespan}
    (hanswer : words.delayFor classification attempts elapsed
      (some asked) draw = some answer) :
    answer =
      if (1 ≤ attempts.toNat ∧
        words.permitsRetry classification attempts elapsed = true) ∧
          asked.value ≤ words.maxElapsed.value - elapsed.value then
        some asked
      else
        none := by
  have hvalue := answer_eq h hanswer
  have hdue := due_denotes h classification attempts elapsed
  refine Option.map_injective Timespan.value_injective (hvalue.trans ?_)
  by_cases hd : policy.Due classification attempts.toNat elapsed.value
  · rw [Option.map_some, RetryPolicy.delayFor_asked hd, h.maxElapsed]
    by_cases hfits : asked.value ≤ words.maxElapsed.value - elapsed.value
    · rw [if_pos hfits, if_pos ⟨hdue.mpr hd, hfits⟩]
      rfl
    · rw [if_neg hfits, if_neg fun hand => hfits hand.2]
      rfl
  · rw [RetryPolicy.delayFor_of_not_due hd,
      if_neg fun hand => hd (hdue.mp hand.1)]
    rfl

/-- A delay that is drawn is there whenever one is due, and below both
bounds. -/
theorem answer_drawn
    (hanswer : words.delayFor classification attempts elapsed none draw =
      some answer)
    (hone : 1 ≤ attempts.toNat)
    (hpermits : words.permitsRetry classification attempts elapsed = true) :
    ∃ delay, answer = some delay ∧ delay.value ≤ words.maxDelay.value ∧
      delay.value ≤ words.base classification * 2 ^ (attempts.toNat - 1) := by
  have hvalue := answer_eq h hanswer
  have hdue :=
    (due_denotes h classification attempts elapsed).mp ⟨hone, hpermits⟩
  have hsome := hvalue
  rw [Option.map_none, RetryPolicy.delayFor_drawn hdue, Option.map_eq_some_iff]
    at hsome
  obtain ⟨delay, rfl, -⟩ := hsome
  have hceiling := RetryPolicy.delayFor_drawn_le hvalue.symm
  refine ⟨delay, rfl, ?_, ?_⟩
  · rw [← h.maxDelay]
    exact hceiling.trans (policy.delayCeiling_le_maxDelay _ _)
  · rw [← base_denotes h]
    exact hceiling.trans (policy.delayCeiling_le_pow _ _)

theorem delayCeiling_le {classification classification' : RetryClassification}
    {n n' : UInt32}
    (hle : policy.delayCeiling classification n.toNat ≤
      policy.delayCeiling classification' n'.toNat) :
    ∃ ceiling ceiling', words.delayCeiling classification n = some ceiling ∧
      words.delayCeiling classification' n' = some ceiling' ∧
      ceiling ≤ ceiling' := by
  obtain ⟨ceiling, hceiling, hvalue⟩ := delayCeiling_denotes h classification n
  obtain ⟨ceiling', hceiling', hvalue'⟩ :=
    delayCeiling_denotes h classification' n'
  refine ⟨ceiling, ceiling', hceiling, hceiling', ?_⟩
  rwa [Timespan.le_iff, hvalue, hvalue']

end Answers

/-- Every accepted policy gives an answer, whatever it is asked: a delay is due
only after an attempt and when another is permitted, and it is over in time;
what the service asked for is granted exactly when it fits; and what is drawn is
below the bound of the policy and below a ceiling that doubles from attempt to
attempt, grows with their number and is highest for throttling. -/
theorem delayFor_spec {maxAttempts : UInt32}
    {baseDelay maxDelay maxElapsed : Timespan} {words : PolicyWords}
    (hnew : new maxAttempts baseDelay maxDelay maxElapsed = .ok words)
    (classification : RetryClassification) (attempts : UInt32)
    (elapsed : Timespan) (retryAfter : Option Timespan) (draw : UInt64) :
    (∃ answer, words.delayFor classification attempts elapsed retryAfter draw =
      some answer ∧
      (∀ delay, answer = some delay →
        (1 ≤ attempts.toNat ∧
          words.permitsRetry classification attempts elapsed = true) ∧
          elapsed.value + delay.value ≤ maxElapsed.value) ∧
      (∀ asked, retryAfter = some asked →
        answer =
          if (1 ≤ attempts.toNat ∧
            words.permitsRetry classification attempts elapsed = true) ∧
              asked.value ≤ maxElapsed.value - elapsed.value then
            some asked
          else
            none) ∧
      (retryAfter = none → 1 ≤ attempts.toNat →
        words.permitsRetry classification attempts elapsed = true →
        ∃ delay, answer = some delay ∧ delay.value ≤ maxDelay.value ∧
          delay.value ≤ words.base classification * 2 ^ (attempts.toNat - 1))) ∧
    (∀ n n' : UInt32, n ≤ n' →
      ∃ ceiling ceiling', words.delayCeiling classification n = some ceiling ∧
      words.delayCeiling classification n' = some ceiling' ∧
      ceiling ≤ ceiling') ∧
    ∀ n : UInt32, ∃ ceiling ceiling', words.delayCeiling .retryable n =
      some ceiling ∧
      words.delayCeiling .throttled n = some ceiling' ∧ ceiling ≤ ceiling' := by
  obtain ⟨rfl, policy, -, h⟩ := new_denotes hnew
  obtain ⟨answer, hanswer, -⟩ :=
    delayFor_denotes h classification attempts elapsed retryAfter draw
  refine ⟨⟨answer, hanswer, ?_, ?_, ?_⟩, ?_, ?_⟩
  · intro delay hsome
    subst hsome
    exact answer_due h hanswer
  · intro asked hasked
    subst hasked
    exact answer_asked h hanswer
  · intro hnone hone hpermits
    subst hnone
    exact answer_drawn h hanswer hone hpermits
  · intro n n' hle
    exact delayCeiling_le h
      (policy.delayCeiling_mono classification (UInt32.le_iff_toNat_le.mp hle))
  · intro n
    exact delayCeiling_le h
      (policy.delayCeiling_le_throttled .retryable n.toNat)

theorem threeSeconds_lt : 3 < 2 ^ 64 := by decide

def threeSeconds : Timespan := ⟨3, 0, threeSeconds_lt, Timespan.whole_seconds⟩

theorem eightSeconds_lt : 8 < 2 ^ 64 := by decide

def eightSeconds : Timespan := ⟨8, 0, eightSeconds_lt, Timespan.whole_seconds⟩

def samplePolicy : PolicyWords := ⟨10, oneSecond, eightSeconds, eightSeconds⟩

theorem new_sample :
    new 10 oneSecond eightSeconds eightSeconds = .ok samplePolicy := by
  have hzero : ∀ t : Timespan, 0 < t.secs → t ≠ Timespan.zero := by
    rintro t hpos rfl
    exact Nat.lt_irrefl 0 hpos
  have hdelays : ¬eightSeconds < oneSecond := by decide
  rw [new, if_neg (by decide), if_neg (hzero oneSecond Nat.one_pos),
    if_neg hdelays,
    if_neg (hzero eightSeconds (Nat.succ_pos 7))]
  rfl

/-- Seven seconds remain of eight, so the three that the service asks for are
granted. -/
theorem delayFor_spec_three :
    ∃ answer,
      samplePolicy.delayFor .throttled 1 oneSecond (some threeSeconds) 0 =
        some answer ∧
      answer = some threeSeconds := by
  obtain ⟨⟨answer, hanswer, -, hasked, -⟩, -⟩ :=
    delayFor_spec new_sample .throttled 1 oneSecond (some threeSeconds) 0
  refine ⟨answer, hanswer,
    (hasked threeSeconds rfl).trans (if_pos ⟨⟨?_, ?_⟩, ?_⟩)⟩
  · decide
  · decide
  · decide

end PolicyWords

end S3Wire
