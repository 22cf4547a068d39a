/-
# `S3Wire.Credentials.Cache` — a credential cache shared by any number of callers

`CachedCredentialsProvider` of `src/credentials/mod.rs`.  A call holds a mutex
from its look at the cache until it returns, so calls follow one another; what
the environment decides is who comes next, what the clock shows, what the inner
provider answers and when, and which callers are dropped while they wait for it.
That is in the labels of `CacheState.step`, and a history of events is what a
run leaves behind.

A call reads the clock once, before it asks the inner provider.  What this
reading is still worth when the answer comes is the subject of the last section:
cached credentials that fall due in between are handed out after they have
expired (`fallback_unexpired_iff`).  The first law is about how often the inner
provider is asked (`refresh_law`).
-/
import S3Wire.Lib.History
import S3Wire.Client.Signing

namespace S3Wire

/-! ## The cache -/

/-- `PrimitiveDateTime::MAX` in UTC: the last nanosecond of the year 9999. -/
def maxDateTime : Int := 253402300799999999999

/-- `time::Duration::MAX`, in nanoseconds. -/
def maxTimeDuration : Nat := 9223372036854775807999999999

/-- `OffsetDateTime::saturating_add` of a duration that is not negative. -/
def saturatingAddTime (time : Int) (duration : Nat) : Int :=
  min (time + duration) maxDateTime

/-- The state behind the mutex, and how long before their expiry credentials are
replaced. -/
structure CachedCredentialsProvider where
  refreshBefore : Duration
  cached : Option Credentials

namespace CachedCredentialsProvider

def new : CachedCredentialsProvider := ⟨Duration.fromSecs 60, none⟩

def withRefreshBefore (refreshBefore : Duration) : CachedCredentialsProvider :=
  ⟨refreshBefore, none⟩

variable (p : CachedCredentialsProvider)

/-- Credentials that end by this time are replaced. -/
def refreshDeadline (now : Int) : Int :=
  saturatingAddTime now (min p.refreshBefore maxTimeDuration)

def invalidate : CachedCredentialsProvider := { p with cached := none }

/-- `provide_credentials` up to its call of the inner provider: what it returns
without one. -/
def lookup (now : Int) : Option Credentials :=
  p.cached.filter fun credentials =>
    !credentials.expiresBy (p.refreshDeadline now)

/-- `provide_credentials` after the inner provider has answered.  `now` is the
reading made at the start. -/
def finish (now : Int) : Except S3Error Credentials →
    Except S3Error Credentials × CachedCredentialsProvider
  | .ok credentials => (.ok credentials, { p with cached := some credentials })
  | .error refreshError =>
      match p.cached.filter fun credentials => !credentials.expiresBy now with
      | some credentials => (.ok credentials, p)
      | none => (.error refreshError, p)

theorem finish_error (now : Int) (e : S3Error) :
    (p.finish now (.error e)).2 = p := by
  rw [finish]
  split <;> rfl

variable {p}

/-- A refresh that fails falls back on cached credentials that had not expired
when it started. -/
theorem finish_error_fst {now : Int} {e : S3Error} {credentials : Credentials} :
    (p.finish now (.error e)).1 = .ok credentials ↔
      p.cached = some credentials ∧ credentials.expiresBy now = false := by
  rw [finish]
  cases h : p.cached.filter fun credentials => !credentials.expiresBy now with
  | none =>
      rw [Option.filter_eq_none_iff] at h
      constructor
      · intro hne
        cases hne
      · rintro ⟨hcached, hlive⟩
        have := h credentials hcached
        rw [hlive] at this
        exact absurd rfl this
  | some found =>
      rw [Option.filter_eq_some_iff] at h
      obtain ⟨hcached, hlive⟩ := h
      constructor
      · intro heq
        cases heq
        exact ⟨hcached, by simpa using hlive⟩
      · rintro ⟨hsame, -⟩
        rw [hcached] at hsame
        cases hsame
        rfl

theorem lookup_some {now : Int} {credentials : Credentials} :
    p.lookup now = some credentials ↔
      p.cached = some credentials ∧
      credentials.expiresBy (p.refreshDeadline now) = false := by
  rw [lookup, Option.filter_eq_some_iff, Bool.not_eq_true']

theorem lookup_none {now : Int} :
    p.lookup now = none ↔
      ∀ credentials, p.cached = some credentials →
      credentials.expiresBy (p.refreshDeadline now) = true := by
  rw [lookup, Option.filter_eq_none_iff]
  simp

end CachedCredentialsProvider

/-- The refresh window saturates: it is never wider than it was asked to be. -/
theorem expiry_le_of_refreshDeadline {p : CachedCredentialsProvider}
    {credentials : Credentials} {now : Int}
    (h : credentials.expiresBy (p.refreshDeadline now) = true) :
    ∃ expiry, credentials.expiresAt = some expiry ∧
    expiry ≤ now + p.refreshBefore := by
  rw [Credentials.expiresBy, Option.any_eq_true] at h
  obtain ⟨expiry, hexpiry, hle⟩ := h
  rw [decide_eq_true_eq, CachedCredentialsProvider.refreshDeadline,
    saturatingAddTime] at hle
  refine ⟨expiry, hexpiry, ?_⟩
  omega

/-! ## Any number of callers -/

/-- What the calls of a cached provider come to; the history lists it, latest
first. -/
inductive CacheEvent where
  /-- A call returned cached credentials without asking. -/
  | hit (caller : Nat) (credentials : Credentials) (now : Int)
  /-- A call asked the inner provider. -/
  | invoked (caller : Nat) (now : Int)
  /-- The inner provider answered with credentials, which the call returned. -/
  | succeeded (caller : Nat) (credentials : Credentials) (time : Int)
  /-- The inner provider failed, and the call returned `result`. -/
  | failed (caller : Nat) (e : S3Error) (result : Except S3Error Credentials)
      (time : Int)
  /-- The caller was dropped before the inner provider answered. -/
  | dropped (caller : Nat) (time : Int)
  | invalidated (time : Int)

namespace CacheEvent

/-- The time of an event. -/
def time : CacheEvent → Int
  | .hit _ _ now => now
  | .invoked _ now => now
  | .succeeded _ _ time => time
  | .failed _ _ _ time => time
  | .dropped _ time => time
  | .invalidated time => time

def isInvoked : CacheEvent → Bool
  | .invoked _ _ => true
  | _ => false

def isInvalidated : CacheEvent → Bool
  | .invalidated _ => true
  | _ => false

end CacheEvent

/-- The call that holds the mutex while it waits for the inner provider. -/
structure Refresh where
  caller : Nat
  now : Int
  deriving DecidableEq

/-- The cache, the clock and the log, LATEST FIRST. -/
structure CacheState where
  provider : CachedCredentialsProvider
  holder : Option Refresh
  clock : Int
  log : List CacheEvent

/-- What the environment decides: who has the mutex, and what the inner provider
answers. -/
inductive CacheLabel where
  /-- A caller has the mutex, and reads the clock. -/
  | acquire (caller : Nat) (now : Int)
  | answer (result : Except S3Error Credentials) (time : Int)
  | drop (time : Int)
  | invalidate (time : Int)

namespace CacheState

def init (refreshBefore : Duration) (clock : Int) : CacheState :=
  ⟨.withRefreshBefore refreshBefore, none, clock, []⟩

/-- One step of the callers and of the provider that they share. -/
def step (s : CacheState) : CacheLabel → Option CacheState
  | .acquire caller now =>
      if s.holder.isSome ∨ now < s.clock then none
      else
        match s.provider.lookup now with
        | some credentials =>
            some { s with clock := now
                          log := .hit caller credentials now :: s.log }
        | none =>
            some { s with holder := some ⟨caller, now⟩, clock := now
                          log := .invoked caller now :: s.log }
  | .answer result time =>
      match s.holder with
      | none => none
      | some refresh =>
          if time < s.clock then none
          else
            let (returned, provider) := s.provider.finish refresh.now result
            some
              { provider := provider
                holder := none
                clock := time
                log :=
                  (match result with
                    | .ok credentials =>
                        .succeeded refresh.caller credentials time
                    | .error e =>
                        .failed refresh.caller e returned time) :: s.log }
  | .drop time =>
      match s.holder with
      | none => none
      | some refresh =>
          if time < s.clock then none
          else
            some { s with holder := none, clock := time
                          log := .dropped refresh.caller time :: s.log }
  | .invalidate time =>
      if s.holder.isSome ∨ time < s.clock then none
      else
        some { s with provider := s.provider.invalidate, clock := time
                      log := .invalidated time :: s.log }

end CacheState

/-- What a step does. -/
inductive CacheStep (s : CacheState) : CacheState → CacheLabel → Prop
  | hit {caller now credentials} (hfree : s.holder = none)
    (hclock : s.clock ≤ now)
      (hlookup : s.provider.lookup now = some credentials) :
      CacheStep s
        { s with clock := now, log := .hit caller credentials now :: s.log }
          (.acquire caller now)
  | invoke {caller now} (hfree : s.holder = none) (hclock : s.clock ≤ now)
      (hlookup : s.provider.lookup now = none) :
      CacheStep s
        { s with holder := some ⟨caller, now⟩, clock := now
                 log := .invoked caller now :: s.log }
        (.acquire caller now)
  | succeed {refresh credentials time} (hheld : s.holder = some refresh)
      (hclock : s.clock ≤ time) :
      CacheStep s
        { provider := { s.provider with cached := some credentials },
          holder := none, clock := time
          log := .succeeded refresh.caller credentials time :: s.log }
        (.answer (.ok credentials) time)
  | fail {refresh e time} (hheld : s.holder = some refresh)
      (hclock : s.clock ≤ time) :
      CacheStep s
        { provider := s.provider, holder := none, clock := time
          log := .failed refresh.caller e
            (s.provider.finish refresh.now (.error e)).1 time :: s.log }
        (.answer (.error e) time)
  | drop {refresh time} (hheld : s.holder = some refresh)
      (hclock : s.clock ≤ time) :
      CacheStep s { s with holder := none, clock := time
                           log := .dropped refresh.caller time :: s.log }
        (.drop time)
  | invalidate {time} (hfree : s.holder = none) (hclock : s.clock ≤ time) :
      CacheStep s
        { s with provider := s.provider.invalidate, clock := time
                 log := .invalidated time :: s.log }
        (.invalidate time)

theorem CacheState.step_cases {s s' : CacheState} {l : CacheLabel}
    (h : s.step l = some s') :
    CacheStep s s' l := by
  cases l with
  | acquire caller now =>
      rw [step] at h
      split at h
      · cases h
      · next hguard =>
          rw [not_or, Option.not_isSome_iff_eq_none, not_lt] at hguard
          split at h
          · next credentials hlookup =>
              cases h
              exact .hit hguard.1 hguard.2 hlookup
          · next hlookup =>
              cases h
              exact .invoke hguard.1 hguard.2 hlookup
  | answer result time =>
      rw [step] at h
      split at h
      · cases h
      · next refresh hheld =>
          split at h
          · cases h
          · next hclock =>
              cases result with
              | ok credentials =>
                  cases h
                  exact .succeed hheld (not_lt.mp hclock)
              | error e =>
                  have hfail := CacheStep.fail (e := e) hheld (not_lt.mp hclock)
                  dsimp only at h
                  rw [CachedCredentialsProvider.finish_error] at h
                  cases h
                  exact hfail
  | drop time =>
      rw [step] at h
      split at h
      · cases h
      · next refresh hheld =>
          split at h
          · cases h
          · next hclock =>
              cases h
              exact .drop hheld (not_lt.mp hclock)
  | invalidate time =>
      rw [step] at h
      split at h
      · cases h
      · next hguard =>
          rw [not_or, Option.not_isSome_iff_eq_none, not_lt] at hguard
          cases h
          exact .invalidate hguard.1 hguard.2

/-! ## What the history says -/

/-- The credentials of the most recent success that no `invalidate` followed. -/
def lastSuccess : List CacheEvent → Option Credentials
  | [] => none
  | .succeeded _ credentials _ :: _ => some credentials
  | .invalidated _ :: _ => none
  | .hit _ _ _ :: past => lastSuccess past
  | .invoked _ _ :: past => lastSuccess past
  | .failed _ _ _ _ :: past => lastSuccess past
  | .dropped _ _ :: past => lastSuccess past

/-- The call that waits for the inner provider. -/
def openRefresh : List CacheEvent → Option Refresh
  | .invoked caller now :: _ => some ⟨caller, now⟩
  | _ => none

/-- How every event stands to its past, for a cache with this refresh window. -/
def CacheLaw (refreshBefore : Duration) (event : CacheEvent)
    (past : List CacheEvent) : Prop :=
  let provider : CachedCredentialsProvider := ⟨refreshBefore, lastSuccess past⟩
  match event with
  | .hit _ credentials now =>
      openRefresh past = none ∧ provider.lookup now = some credentials
  | .invoked _ now => openRefresh past = none ∧ provider.lookup now = none
  | .succeeded caller _ _ => ∃ now, openRefresh past = some ⟨caller, now⟩
  | .failed caller e result _ =>
      ∃ now, openRefresh past = some ⟨caller, now⟩ ∧
        result = (provider.finish now (.error e)).1
  | .dropped caller _ => ∃ now, openRefresh past = some ⟨caller, now⟩
  | .invalidated _ => openRefresh past = none

/-- The invariant: the state is what the history says, and the history keeps the
law. -/
structure CacheInv (refreshBefore : Duration) (s : CacheState) : Prop where
  provider : s.provider = ⟨refreshBefore, lastSuccess s.log⟩
  holder : s.holder = openRefresh s.log
  lawful : Lib.Justified (CacheLaw refreshBefore) s.log
  clock : ∀ event ∈ s.log, event.time ≤ s.clock

theorem cacheInv_init (refreshBefore : Duration) (clock : Int) :
    CacheInv refreshBefore (.init refreshBefore clock) :=
  ⟨rfl, rfl, trivial, fun _ h => nomatch h⟩

section Law

variable {refreshBefore : Duration} {s s' : CacheState} {l : CacheLabel}

/-- The clock bounds what was logged, also after an event at its new reading. -/
theorem clock_cons {event : CacheEvent} {log : List CacheEvent} {clock : Int}
    (h : ∀ e ∈ log, e.time ≤ clock) (hclock : clock ≤ event.time) :
    ∀ e ∈ event :: log, e.time ≤ event.time := by
  intro e he
  rcases List.mem_cons.mp he with rfl | he
  · exact le_rfl
  · exact (h e he).trans hclock

theorem cacheInv_step (h : s.step l = some s') (hi : CacheInv refreshBefore s) :
    CacheInv refreshBefore s' := by
  obtain ⟨hprovider, hholder, hlawful, htime⟩ := hi
  cases CacheState.step_cases h with
  | hit hfree hclock hlookup =>
      rw [hprovider] at hlookup
      exact ⟨hprovider, hfree, ⟨⟨hholder ▸ hfree, hlookup⟩, hlawful⟩,
        clock_cons htime hclock⟩
  | invoke hfree hclock hlookup =>
      rw [hprovider] at hlookup
      exact ⟨hprovider, rfl, ⟨⟨hholder ▸ hfree, hlookup⟩, hlawful⟩,
        clock_cons htime hclock⟩
  | succeed hheld hclock =>
      refine ⟨?_, rfl, ⟨⟨_, hholder ▸ hheld⟩, hlawful⟩, clock_cons htime hclock⟩
      rw [hprovider]
      rfl
  | fail hheld hclock =>
      rw [hprovider]
      exact ⟨rfl, rfl, ⟨⟨_, hholder ▸ hheld, rfl⟩, hlawful⟩,
        clock_cons htime hclock⟩
  | drop hheld hclock =>
      exact ⟨hprovider, rfl, ⟨⟨_, hholder ▸ hheld⟩, hlawful⟩,
        clock_cons htime hclock⟩
  | invalidate hfree hclock =>
      have hopen : openRefresh s.log = none := hholder ▸ hfree
      refine ⟨?_, hfree, ⟨hopen, hlawful⟩, clock_cons htime hclock⟩
      rw [hprovider]
      rfl

theorem cacheInv_exec {clock : Int} {ls : List CacheLabel}
    (h : Lib.exec CacheState.step (.init refreshBefore clock) ls = some s) :
    CacheInv refreshBefore s :=
  Lib.exec_invariant cacheInv_step h (cacheInv_init _ _)

/-- After a success, and until the cache is invalidated or the inner provider
asked again, there are only hits; so the cache holds what that success
returned. -/
theorem lastSuccess_of_quiet {caller : Nat} {credentials : Credentials}
    {time : Int} {earlier : List CacheEvent} : ∀ {later : List CacheEvent},
    Lib.Justified (CacheLaw refreshBefore)
      (later ++ .succeeded caller credentials time :: earlier) →
    (∀ e ∈ later, e.isInvoked = false ∧ e.isInvalidated = false) →
    lastSuccess (later ++ .succeeded caller credentials time :: earlier) =
      some credentials ∧
      openRefresh (later ++ .succeeded caller credentials time :: earlier) =
        none
  | [], _, _ => ⟨rfl, rfl⟩
  | event :: later, hj, hquiet => by
      obtain ⟨hlast, hopen⟩ :=
        lastSuccess_of_quiet hj.2 fun e he =>
          hquiet e (List.mem_cons_of_mem _ he)
      have hlaw := hj.1
      obtain ⟨hinvoked, hinvalidated⟩ := hquiet event (List.mem_cons_self ..)
      cases event with
      | hit => exact ⟨hlast, rfl⟩
      | invoked => cases hinvoked
      | invalidated => cases hinvalidated
      | succeeded =>
          obtain ⟨now, hsome⟩ := hlaw
          cases hopen.symm.trans hsome
      | failed =>
          obtain ⟨now, hsome, -⟩ := hlaw
          cases hopen.symm.trans hsome
      | dropped =>
          obtain ⟨now, hsome⟩ := hlaw
          cases hopen.symm.trans hsome

theorem lastSuccess_some {credentials : Credentials} :
    ∀ {log : List CacheEvent},
    lastSuccess log = some credentials → ∃ later caller time earlier,
      log = later ++ .succeeded caller credentials time :: earlier ∧
        ∀ e ∈ later, e.isInvalidated = false ∧
        ∀ c cred t, e ≠ .succeeded c cred t
  | [], h => nomatch h
  | event :: past, h => by
      have hskip : event.isInvalidated = false →
          (∀ c cred t, event ≠ .succeeded c cred t) →
          lastSuccess past = some credentials → ∃ later caller time earlier,
            event :: past =
              later ++ .succeeded caller credentials time :: earlier ∧
              ∀ e ∈ later, e.isInvalidated = false ∧
                  ∀ c cred t, e ≠ .succeeded c cred t := by
        intro hinvalidated hsucceeded hpast
        obtain ⟨later, caller, time, earlier, rfl, hlater⟩ :=
          lastSuccess_some hpast
        refine ⟨event :: later, caller, time, earlier, rfl, ?_⟩
        intro e he
        rcases List.mem_cons.mp he with rfl | he
        · exact ⟨hinvalidated, hsucceeded⟩
        · exact hlater e he
      cases event with
      | succeeded caller found time =>
          cases h
          exact ⟨[], caller, time, past, rfl, fun e he => nomatch he⟩
      | invalidated => cases h
      | hit => exact hskip rfl (fun _ _ _ he => nomatch he) h
      | invoked => exact hskip rfl (fun _ _ _ he => nomatch he) h
      | failed => exact hskip rfl (fun _ _ _ he => nomatch he) h
      | dropped => exact hskip rfl (fun _ _ _ he => nomatch he) h

end Law

/-! ## How often the inner provider is asked -/

/-- Why the inner provider is asked again: what came of its last invocation, by
`caller`, among the events since. -/
inductive AskedAgain (refreshBefore : Duration) (caller : Nat)
    (since : List CacheEvent) (now : Int) : Prop
  | failed (e : S3Error) (result : Except S3Error Credentials) (time : Int)
      (h : .failed caller e result time ∈ since)
  | dropped (time : Int) (h : .dropped caller time ∈ since)
  | invalidated (time : Int) (h : .invalidated time ∈ since)
  | due (credentials : Credentials) (time expiry : Int)
      (h : .succeeded caller credentials time ∈ since)
      (hexpiry : credentials.expiresAt = some expiry)
      (hdue : expiry ≤ now + refreshBefore)

section Refreshes

variable {refreshBefore : Duration} {s : CacheState}

theorem askedAgain {later since earlier : List CacheEvent}
    {caller caller' : Nat} {now now' : Int}
    (hj : Lib.Justified (CacheLaw refreshBefore)
      (later ++
        .invoked caller' now' :: (since ++ .invoked caller now :: earlier)))
    (hbetween : ∀ e ∈ since, e.isInvoked = false) :
    AskedAgain refreshBefore caller since now' := by
  have hasked := hj.at_split
  obtain ⟨hopen, hlookup⟩ := hasked
  -- the first event after the earlier invocation is its outcome
  rcases List.eq_nil_or_concat since with rfl | ⟨rest, outcome, rfl⟩
  · cases hopen
  · have hpast := hj.past.2
    rw [List.concat_eq_append, List.append_assoc, List.singleton_append]
      at hpast hlookup
    have houtcome := hpast.past.1
    have hmem : outcome ∈ rest.concat outcome := by
      rw [List.concat_eq_append]
      exact List.mem_append_right _ (List.mem_singleton_self _)
    cases outcome with
    | hit => cases houtcome.1
    | invoked =>
        have := hbetween _ hmem
        cases this
    | invalidated => cases houtcome
    | failed c e result time =>
        obtain ⟨n, hn, -⟩ := houtcome
        cases hn
        exact .failed e result time hmem
    | dropped c time =>
        obtain ⟨n, hn⟩ := houtcome
        cases hn
        exact .dropped time hmem
    | succeeded c credentials time =>
        obtain ⟨n, hn⟩ := houtcome
        cases hn
        by_cases hinvalidated : ∃ e ∈ rest, e.isInvalidated = true
        · obtain ⟨e, he, hkind⟩ := hinvalidated
          cases e with
          | invalidated t =>
              refine .invalidated t ?_
              rw [List.concat_eq_append]
              exact List.mem_append_left _ he
          | hit => cases hkind
          | invoked => cases hkind
          | succeeded => cases hkind
          | failed => cases hkind
          | dropped => cases hkind
        · have hquiet : ∀ e ∈ rest, e.isInvoked = false ∧
              e.isInvalidated = false := by
            intro e he
            refine ⟨hbetween e ?_, ?_⟩
            · rw [List.concat_eq_append]
              exact List.mem_append_left _ he
            · cases hkind : e.isInvalidated with
              | false => rfl
              | true => exact absurd ⟨e, he, hkind⟩ hinvalidated
          rw [(lastSuccess_of_quiet hpast hquiet).1,
            CachedCredentialsProvider.lookup_none] at hlookup
          obtain ⟨expiry, hexpiry, hdue⟩ :=
            expiry_le_of_refreshDeadline (hlookup credentials rfl)
          exact .due credentials time expiry hmem hexpiry hdue

/-- While the last credentials are not due and the cache is not invalidated,
nobody asks the inner provider. -/
theorem not_invoked_of_fresh {later earlier : List CacheEvent} {caller : Nat}
    {credentials : Credentials} {time clock : Int}
    (hj : Lib.Justified (CacheLaw refreshBefore)
      (later ++ .succeeded caller credentials time :: earlier))
    (hclock : ∀ e ∈ later, e.time ≤ clock)
    (hkept : ∀ e ∈ later, e.isInvalidated = false)
    (hfresh : ∀ expiry ∈ credentials.expiresAt, clock + refreshBefore <
      expiry) :
    ∀ e ∈ later, e.isInvoked = false := by
  induction later with
  | nil =>
      intro e he
      cases he
  | cons event later ih =>
      have hquiet := ih hj.2 (fun e he => hclock e (List.mem_cons_of_mem _ he))
        fun e he => hkept e (List.mem_cons_of_mem _ he)
      intro e he
      rcases List.mem_cons.mp he with rfl | he
      · cases hinvoked : e.isInvoked with
        | false => rfl
        | true =>
            exfalso
            cases e with
            | invoked caller' now =>
                have hlookup :
                    CachedCredentialsProvider.lookup ⟨refreshBefore, lastSuccess
                    (later ++ .succeeded caller credentials time :: earlier)⟩
                      now = none := hj.1.2
                have hlast := (lastSuccess_of_quiet hj.2 fun e he =>
                  ⟨hquiet e he, hkept e (List.mem_cons_of_mem _ he)⟩).1
                rw [hlast, CachedCredentialsProvider.lookup_none] at hlookup
                obtain ⟨expiry, hexpiry, hdue⟩ :=
                  expiry_le_of_refreshDeadline (hlookup credentials rfl)
                have hbefore := hfresh expiry hexpiry
                have hnow := hclock _ (List.mem_cons_self ..)
                simp only [CacheEvent.time] at hnow hdue
                omega
            | hit => cases hinvoked
            | invalidated => cases hinvoked
            | succeeded => cases hinvoked
            | failed => cases hinvoked
            | dropped => cases hinvoked
      · exact hquiet e he

/-- **Refreshes are shared.**  In every run, two consecutive invocations of the
inner provider have a reason between them; a call that makes no invocation
returns the credentials of the last success that no `invalidate` followed; and
however many callers come after a success, none of them asks again before its
credentials are due. -/
theorem refresh_law {clock : Int} {ls : List CacheLabel}
    (h : Lib.exec CacheState.step (.init refreshBefore clock) ls = some s) :
    (∀ later caller' now' since caller now earlier,
      s.log = later ++
        .invoked caller' now' :: (since ++ .invoked caller now :: earlier) →
      (∀ e ∈ since, e.isInvoked = false) →
      AskedAgain refreshBefore caller since now') ∧
    (∀ later caller credentials now past,
      s.log = later ++ .hit caller credentials now :: past →
      ∃ since caller' time earlier,
        past = since ++ .succeeded caller' credentials time :: earlier ∧
        ∀ e ∈ since, e.isInvalidated = false ∧
        ∀ c cred t, e ≠ .succeeded c cred t) ∧
    ∀ later caller credentials time earlier,
      s.log = later ++ .succeeded caller credentials time :: earlier →
      (∀ e ∈ later, e.isInvalidated = false) →
      (∀ expiry ∈ credentials.expiresAt, s.clock + refreshBefore < expiry) →
      ∀ e ∈ later, e.isInvoked = false := by
  have hinv := cacheInv_exec h
  refine ⟨?_, ?_, ?_⟩
  · intro later caller' now' since caller now earlier hlog hbetween
    have hj := hinv.lawful
    rw [hlog] at hj
    exact askedAgain hj hbetween
  · intro later caller credentials now past hlog
    have hj := hinv.lawful
    rw [hlog] at hj
    exact lastSuccess_some
      (CachedCredentialsProvider.lookup_some.mp hj.at_split.2).1
  · intro later caller credentials time earlier hlog hkept hfresh
    have hj := hinv.lawful
    have hclock := hinv.clock
    rw [hlog] at hj hclock
    exact not_invoked_of_fresh hj
      (fun e he => hclock e (List.mem_append_left _ he)) hkept hfresh

end Refreshes

theorem expiringId_nonempty : "AKID".toList ≠ [] := by decide

theorem expiringSecret_nonempty : "secret".toList ≠ [] := by decide

theorem expiringToken_nonempty : (none : Option Str) ≠ some [] := by decide

/-- Credentials that expire at this time. -/
def expiringAt (expiry : Int) : Credentials where
  accessKeyId := "AKID".toList
  secretAccessKey := "secret".toList
  sessionToken := none
  expiresAt := some expiry
  accessKeyId_nonempty := expiringId_nonempty
  secretAccessKey_nonempty := expiringSecret_nonempty
  sessionToken_nonempty := expiringToken_nonempty

/-- A refresh and a second caller; a third caller, to whom the credentials are
due. -/
def refreshedTwice : List CacheLabel :=
  [.acquire 0 0, .answer (.ok (expiringAt 100)) 5, .acquire 1 6, .acquire 2 95]

theorem refresh_law_two_refreshes :
    ∃ s, Lib.exec CacheState.step (.init 10 0) refreshedTwice = some s ∧
      AskedAgain 10 0
        [.hit 1 (expiringAt 100) 6, .succeeded 0 (expiringAt 100) 5] 95 := by
  obtain ⟨s, hs⟩ : ∃ s, Lib.exec CacheState.step (.init 10 0) refreshedTwice =
    some s := ⟨_, rfl⟩
  refine ⟨s, hs, ?_⟩
  have hlog :
      s.log = [.invoked 2 95, .hit 1 (expiringAt 100) 6,
        .succeeded 0 (expiringAt 100) 5,
      .invoked 0 0] := by
    have := Option.some.inj hs
    rw [← this]
    rfl
  refine (refresh_law hs).1 [] 2 95
    [.hit 1 (expiringAt 100) 6, .succeeded 0 (expiringAt 100) 5] 0 0 []
    hlog ?_
  intro e he
  simp only [List.mem_cons, List.not_mem_nil, or_false] at he
  rcases he with rfl | rfl <;> rfl

/-! ## What a failed refresh falls back on -/

/-- The credentials a failed refresh fell back on have not expired when it
finished. -/
def CacheEvent.fallbackUnexpired : CacheEvent → Prop
  | .failed _ _ (.ok credentials) time => credentials.expiresBy time = false
  | _ => True

/-- No cached credentials fall due while the inner provider is failing: those
that had not expired when the call read the clock have not expired when it
fails. -/
def OutlivesRefresh (s : CacheState) : CacheLabel → Prop
  | .answer (.error _) time =>
      ∀ refresh ∈ s.holder, ∀ credentials ∈ s.provider.cached,
        credentials.expiresBy refresh.now = false →
          credentials.expiresBy time = false
  | _ => True

theorem fallback_step {s s' : CacheState} {l : CacheLabel}
    (h : s.step l = some s') :
    (∀ e ∈ s'.log, e.fallbackUnexpired) ↔ (∀ e ∈ s.log, e.fallbackUnexpired) ∧
    OutlivesRefresh s l := by
  have hplain : ∀ {event : CacheEvent}, event.fallbackUnexpired →
      OutlivesRefresh s l →
      ((∀ e ∈ event :: s.log, e.fallbackUnexpired) ↔
        (∀ e ∈ s.log, e.fallbackUnexpired) ∧ OutlivesRefresh s l) := by
    intro event hevent houtlives
    rw [List.forall_mem_cons, and_iff_right hevent, and_iff_left houtlives]
  cases CacheState.step_cases h with
  | hit =>
      refine hplain ?_ ?_ <;> trivial
  | invoke =>
      refine hplain ?_ ?_ <;> trivial
  | succeed =>
      refine hplain ?_ ?_ <;> trivial
  | drop =>
      refine hplain ?_ ?_ <;> trivial
  | invalidate =>
      refine hplain ?_ ?_ <;> trivial
  | @fail refresh e time hheld hclock =>
      rw [List.forall_mem_cons, and_comm]
      refine and_congr_right fun _ => ?_
      have hfalls :=
        @CachedCredentialsProvider.finish_error_fst s.provider refresh.now e
      constructor
      · intro hevent refresh' hrefresh credentials hcached hlive
        rw [hheld] at hrefresh
        cases hrefresh
        rw [hfalls.mpr ⟨hcached, hlive⟩] at hevent
        exact hevent
      · intro houtlives
        cases hresult : (s.provider.finish refresh.now (.error e)).1 with
        | error _ => trivial
        | ok credentials =>
            obtain ⟨hcached, hlive⟩ := hfalls.mp hresult
            exact houtlives refresh hheld credentials hcached hlive

/-- **Falling back on what has expired.**  In every run, no failed refresh
returns credentials that have expired by the time it fails exactly when no
cached credentials fall due between its reading of the clock and its failure. -/
theorem fallback_unexpired_iff {refreshBefore : Duration} {clock : Int}
    {ls : List CacheLabel} {s : CacheState}
    (h : Lib.exec CacheState.step (.init refreshBefore clock) ls = some s) :
    (∀ e ∈ s.log, e.fallbackUnexpired) ↔
      Lib.Along CacheState.step OutlivesRefresh
        (.init refreshBefore clock) ls := by
  have hiff := Lib.exec_iff_along (C := OutlivesRefresh) (J := fun _ => True)
    (I := fun s => ∀ e ∈ s.log, e.fallbackUnexpired) (fun _ _ => trivial)
    (fun h _ => fallback_step h) h trivial
  rw [hiff]
  exact and_iff_right fun e he => nomatch he

/-- An early refresh that fails before the credentials are due. -/
theorem fallback_unexpired_in_time :
    ∃ s, Lib.exec CacheState.step (.init 10 0)
        [.acquire 0 0, .answer (.ok (expiringAt 100)) 5, .acquire 1 95,
          .answer (.error S3Error.transport) 99] =
        some s ∧ ∀ e ∈ s.log, e.fallbackUnexpired := by
  obtain ⟨s, hs⟩ : ∃ s, Lib.exec CacheState.step (.init 10 0)
      [.acquire 0 0, .answer (.ok (expiringAt 100)) 5, .acquire 1 95,
        .answer (.error S3Error.transport) 99] =
      some s := ⟨_, rfl⟩
  refine ⟨s, hs, (fallback_unexpired_iff hs).mpr ?_⟩
  refine ⟨trivial, trivial, trivial, ?_, trivial⟩
  intro refresh hrefresh credentials hcached _
  cases hcached
  rfl

/-- The same refresh, failing at 150: the caller is given credentials that
expired at 100. -/
theorem fallback_expired :
    ∃ s, Lib.exec CacheState.step (.init 10 0)
        [.acquire 0 0, .answer (.ok (expiringAt 100)) 5, .acquire 1 95,
          .answer (.error S3Error.transport) 150] =
        some s ∧
      .failed 1 S3Error.transport (.ok (expiringAt 100)) 150 ∈ s.log ∧
      (expiringAt 100).expiresBy 150 = true :=
  ⟨_, rfl, List.mem_cons_self .., rfl⟩

end S3Wire
