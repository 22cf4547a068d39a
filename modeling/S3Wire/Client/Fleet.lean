/-
# `S3Wire.Client.Fleet` — every operation of every handle, over one retry quota

`S3Client` is an `Arc`: its clones and the handles that `for_bucket` makes of it
share one `RetryQuota` (`src/client/mod.rs`), and each operation on any of them
is a loop of its own (`send_signed_inner`).  Here the loops are the members of a
fleet and the quota is what they share.  A member takes the steps of
`SendState.step` with the quota as it finds it, and what its events do to the
quota is done to the quota of all (`SendEvent.settle`). When it returns, or its
future is dropped, the permit in its locals is dropped with them.

`Retry.Quota` has the four atomic operations by themselves (`Shared.step`).  The
fleet refines it: the loops use the quota in no other way.  So what was proved
there of any interleaving of the four operations holds of the loops, and with
the discipline of a single loop it bounds what all of them together put on the
wire: a request beyond the first of an operation, and beyond its one region
correction, is paid for.
-/
import S3Wire.Client.Request.Exits
import S3Wire.Lib.Fleet

namespace S3Wire

/-! ## What an operation does to the quota -/

/-- What an event does to the quota. -/
def SendEvent.settle : SendEvent → RetryQuota → RetryQuota
  | .permitAcquired classification _, quota =>
    (quota.acquire classification).elim quota Prod.snd
  | .permitCommitted permit, quota => permit.commit.2.drop quota
  | .replenished lastRetryCost, quota =>
      quota.replenishAfterSuccess lastRetryCost
  | _, quota => quota

/-- The label, with the quota that the handling of an outcome meets. -/
def SendLabel.under (quota : RetryQuota) : SendLabel → SendLabel
  | .respond wait outcome env =>
    .respond wait outcome { env with quota := quota }
  | .collect turns env => .collect turns { env with quota := quota }
  | label => label

/-- The quota that the handling of an outcome meets. -/
def SendLabel.quota : SendLabel → Option RetryQuota
  | .respond _ _ env => some env.quota
  | .collect _ env => some env.quota
  | _ => none

theorem SendLabel.quota_under {label : SendLabel} {quota met : RetryQuota}
    (h : (label.under quota).quota = some met) : met = quota := by
  cases label with
  | respond =>
      cases h
      rfl
  | collect =>
      cases h
      rfl
  | check => cases h
  | sign => cases h
  | wake => cases h

namespace SendState

variable (s s' : SendState) (quota : RetryQuota)

/-- The loop has returned: a future that is over is not polled again. -/
def isOver : Bool :=
  match s.phase with
  | .finished _ => true
  | _ => false

/-- What a step logged, latest first. -/
def newEvents : List SendEvent := s'.log.take (s'.log.length - s.log.length)

/-- The quota after the events of a step. -/
def charge : RetryQuota := (s.newEvents s').foldr SendEvent.settle quota

/-- The locals are dropped. -/
def release : RetryQuota :=
  s.pendingRetryPermit.elim quota fun permit => permit.drop quota

end SendState

/-- One call of `send_signed_inner`, on a handle: `live` until it returns or its
future is dropped. -/
structure QuotaUser where
  client : S3Client
  call : SignedSend
  state : SendState
  live : Bool

/-- What a call starts with. -/
structure QuotaCall where
  client : S3Client
  call : SignedSend
  started : Instant

/-- What can befall an operation: a step of its loop, or the drop of its
future. -/
inductive UserLabel where
  | step (label : SendLabel)
  | drop

namespace QuotaUser

/-- An operation that begins, with the loop in its first state. -/
def start (input : QuotaCall) : QuotaUser :=
  let s := SendState.initial input.client input.call input.started
  ⟨input.client, input.call, s, !s.isOver⟩

/-- A step of the loop over the shared quota, or the drop, which returns a
permit. -/
def act (user : QuotaUser) (quota : RetryQuota) : UserLabel →
    Option (QuotaUser × RetryQuota)
  | .step label =>
      if user.live then
        match user.state.step user.client user.call (label.under quota) with
        | none => none
        | some s =>
            let quota := user.state.charge s quota
            if s.isOver then
              some (⟨user.client, user.call, s, false⟩, s.release quota)
            else some (⟨user.client, user.call, s, true⟩, quota)
      else none
  | .drop =>
      if user.live then
        some ({ user with live := false }, user.state.release quota) else none

/-- The permit in its locals. -/
def permit (user : QuotaUser) : Option RetryPermit :=
  if user.live then user.state.pendingRetryPermit else none

def lastRetryCost (user : QuotaUser) : Option Nat :=
  if user.live then user.state.lastRetryCost else none

end QuotaUser

/-- All operations over one quota. -/
abbrev Fleet := Lib.Fleet QuotaUser RetryQuota

namespace Fleet

abbrev Label := Lib.FleetLabel QuotaCall UserLabel

def step : Fleet → Label → Option Fleet :=
  Lib.Fleet.step QuotaUser.start QuotaUser.act

def new : Fleet := ⟨[], RetryQuota.new⟩

end Fleet

/-! ## Accounts of a log -/

/-- What an event spends. -/
def SendEvent.cost : SendEvent → Nat
  | .permitCommitted permit => permit.cost
  | _ => 0

def SendEvent.isCommitted : SendEvent → Bool
  | .permitCommitted _ => true
  | _ => false

def SendEvent.isReplenished : SendEvent → Bool
  | .replenished _ => true
  | _ => false

/-- What the retries of an operation cost. -/
def spentBy (log : List SendEvent) : Nat := (log.map SendEvent.cost).sum

/-- Retries that were begun: permits that were committed. -/
def retriesOf (log : List SendEvent) : Nat := log.countP SendEvent.isCommitted

def successesOf (log : List SendEvent) : Nat :=
  log.countP SendEvent.isReplenished

/-- Corrections of the region. -/
def correctionsOf (log : List SendEvent) : Nat :=
  log.countP (SendEvent.isOf .regionRedirected)

theorem spentBy_other {e : SendEvent} (h : e.cost = 0) (log : List SendEvent) :
    spentBy (e :: log) = spentBy log := by
  rw [spentBy, List.map_cons, List.sum_cons, h]
  exact Nat.zero_add _

theorem successesOf_other {e : SendEvent} (h : e.isReplenished = false)
    (log : List SendEvent) :
    successesOf (e :: log) = successesOf log :=
  List.countP_cons_of_neg (by rw [h]; exact Bool.false_ne_true)

theorem retriesOf_other {e : SendEvent} (h : e.isCommitted = false)
    (log : List SendEvent) :
    retriesOf (e :: log) = retriesOf log :=
  List.countP_cons_of_neg (by rw [h]; exact Bool.false_ne_true)

theorem correctionsOf_other {e : SendEvent}
    (h : e.isOf .regionRedirected = false) (log : List SendEvent) :
    correctionsOf (e :: log) = correctionsOf log :=
  List.countP_cons_of_neg (by rw [h]; exact Bool.false_ne_true)

namespace QuotaUser

variable (user : QuotaUser)

/-- The tokens in the permit that the operation holds. -/
def held : Nat := user.permit.elim 0 RetryPermit.cost

def spent : Nat := spentBy user.state.log

def retries : Nat := retriesOf user.state.log

def successes : Nat := successesOf user.state.log

/-- How many requests it sent. -/
def sent : Nat := (transmissions user.state.log).length

def corrections : Nat := correctionsOf user.state.log

end QuotaUser

/-! ## One step and the quota -/

namespace SendState

section Charges

variable {client : S3Client} {call : SignedSend} {s s' : SendState}
  {quota : RetryQuota}

theorem newEvents_eq {new : List SendEvent} (h : s'.log = new ++ s.log) :
    s.newEvents s' = new := by
  rw [newEvents, h, List.length_append, Nat.add_sub_cancel, List.take_left]

theorem charge_eq {new : List SendEvent} (h : s'.log = new ++ s.log)
    (quota : RetryQuota) :
    s.charge s' quota = new.foldr SendEvent.settle quota := by
  rw [charge, newEvents_eq h]

/-- A retry was scheduled with a permit of the quota that was met. -/
def Acquires (quota : RetryQuota) (s s' : SendState) : Prop :=
  ∃ error permit left event, quota.acquire error = some (permit, left) ∧
    s'.pendingRetryPermit = some permit ∧
    s'.log = .observed event :: .permitAcquired error permit :: s.log

theorem failureDecision_acquires {policy : RetryPolicy} {replayable : Bool}
    {classification : RetryClassification} {attemptsCompleted draw : Nat}
    {elapsed delay : Duration} {retryAfter : Option Duration}
    {remaining : Except S3Error Duration} {permit : RetryPermit}
    (h : failureDecision policy replayable classification attemptsCompleted
      elapsed retryAfter draw remaining
      quota = .schedule delay permit) :
      ∃ left, quota.acquire classification = some (permit, left) := by
  rw [failureDecision] at h
  split at h
  · cases h
  split at h
  · cases h
  split at h
  · cases h
  split at h
  · cases h
  split at h
  · cases h
  split at h
  · cases h
  split at h
  · cases h
  split at h
  · cases h
  next left hquota =>
    cases h
    exact ⟨left, hquota⟩

theorem fail_acquires {error : S3Error} {retryAfter : Option Duration}
    {env : OutcomeEnv}
    (h : (s.fail client call error retryAfter env).phase = .sleeping) :
    Acquires env.quota s (s.fail client call error retryAfter env) := by
  rw [fail] at h ⊢
  split at h
  · cases h
  · next delay permit hdecision =>
      obtain ⟨left, hquota⟩ := failureDecision_acquires hdecision
      exact ⟨_, _, left, _, hquota, rfl, rfl⟩

theorem respond_acquires {outcome : Except S3Error ResponseHead}
    {env : OutcomeEnv}
    (h : (s.respond client call outcome env).phase = .sleeping) :
    Acquires env.quota s (s.respond client call outcome env) := by
  cases outcome with
  | error e => exact fail_acquires h
  | ok response =>
      rw [respond] at h
      dsimp only at h
      split at h
      · split at h
        · cases h
        · cases h
      · split at h
        · rw [correct] at h
          split at h
          · cases h
          · cases h
        · cases h

theorem collected_acquires {response : ResponseHead}
    {retryAfter : Option Duration} {maximum : Nat}
    {embeddedError : EmbeddedErrorParser} {result : Except S3Error Bytes}
    {env : OutcomeEnv}
    (h : (s.collected client call response retryAfter maximum embeddedError
      result env).phase = .sleeping) :
    Acquires env.quota s
      (s.collected client call response retryAfter maximum embeddedError result
        env) := by
  rw [collected.eq_def] at h ⊢
  split at h
  · exact fail_acquires h
  · split at h
    · exact fail_acquires h
    · exact fail_acquires h
    · cases h

theorem sign_awake {answer : SigningEnv} {wait : Duration} :
    (s.sign client call answer wait).phase ≠ .sleeping := by
  intro h
  rw [sign] at h
  split at h
  · cases h
  · dsimp only at h
    split at h
    · cases h
    · rw [beginAttempt] at h
      cases h

/-- **A retry is scheduled with what the quota gave.** -/
theorem step_acquires {label : SendLabel}
    (h : step client call s label = some s')
    (hsleeping : s'.phase = .sleeping) : ∃ quota, label.quota = some quota ∧
    Acquires quota s s' := by
  rw [step.eq_def] at h
  split at h
  · dsimp only at h
    split at h
    · cases h
      cases hsleeping
    · cases h
      cases hsleeping
  · dsimp only at h
    split at h
    · split at h
      · cases h
      · cases h
        cases hsleeping
    · cases h
      exact absurd hsleeping sign_awake
  · next wait outcome env hphase =>
      cases h
      exact ⟨env.quota, rfl, respond_acquires (s := s.after wait) hsleeping⟩
  · next response retryAfter maximum embeddedError turns env hphase =>
      split at h
      · cases h
      · next result clock hcollect =>
          cases h
          exact ⟨env.quota, rfl,
            collected_acquires (s := { s with clock := clock }) hsleeping⟩
  · next response retryAfter turns env hphase =>
      split at h
      · cases h
      · next result clock hcollect =>
          cases h
          exact ⟨env.quota, rfl,
            fail_acquires (s := { s with clock := clock }) hsleeping⟩
  · cases h
    cases hsleeping
  · cases h

/-- What a step does to the quota, and what it does to the accounts with it. -/
inductive Charge (quota : RetryQuota) (s s' : SendState) : RetryQuota → Prop
  | free (hpermit : s'.pendingRetryPermit = s.pendingRetryPermit)
    (hcost : s'.lastRetryCost = s.lastRetryCost)
      (hspent : spentBy s'.log = spentBy s.log)
      (hsuccess : successesOf s'.log = successesOf s.log) :
      Charge quota s s' quota
  | committed {permit : RetryPermit} (hover : s'.isOver = false)
      (hbefore : s.pendingRetryPermit = some permit)
      (hpermit : s'.pendingRetryPermit = none)
      (hcost : s'.lastRetryCost = some permit.cost)
      (hspent : spentBy s'.log = permit.cost + spentBy s.log)
      (hsuccess : successesOf s'.log = successesOf s.log) :
      Charge quota s s' quota
  | acquired {classification : RetryClassification} {permit : RetryPermit}
      {left : RetryQuota}
      (hover : s'.isOver = false) (hbefore : s.pendingRetryPermit = none)
      (hquota : quota.acquire classification = some (permit, left))
      (hpermit : s'.pendingRetryPermit = some permit)
      (hcost : s'.lastRetryCost = s.lastRetryCost)
      (hspent : spentBy s'.log = spentBy s.log)
      (hsuccess : successesOf s'.log = successesOf s.log) :
        Charge quota s s' left
  | succeeded (hover : s'.isOver = true) (hbefore : s.pendingRetryPermit = none)
      (hpermit : s'.pendingRetryPermit = none)
      (hspent : spentBy s'.log = spentBy s.log)
      (hsuccess : successesOf s'.log = successesOf s.log + 1) :
      Charge quota s s' (quota.replenishAfterSuccess s.lastRetryCost)

theorem permit_of_inFlight (hd : Disciplined client call s)
    (h : s.phase.isInFlight = true) :
    s.pendingRetryPermit = none := by
  obtain ⟨stage, hstands, -⟩ := hd
  exact (hstands.of_inFlight h).2

theorem Charge.of_log (new : List SendEvent) (hlog : s'.log = new ++ s.log)
    (h : Charge quota s s' (new.foldr SendEvent.settle quota)) :
    Charge quota s s' (s.charge s' quota) := by
  rw [charge_eq hlog]
  exact h

/-- **The loop uses the quota in four ways.** -/
theorem charge_of_step {label : SendLabel} (hd : Disciplined client call s)
    (h : step client call s (label.under quota) = some s') :
    Charge quota s s' (s.charge s' quota) := by
  generalize hunder : label.under quota = met at h
  cases step_turn h with
  | checked hphase => exact .of_log [] rfl (.free rfl rfl rfl rfl)
  | expired hphase => exact .of_log [] rfl (.free rfl rfl rfl rfl)
  | timedOut hphase => exact .of_log [] rfl (.free rfl rfl rfl rfl)
  | refused hphase => exact .of_log [] rfl (.free rfl rfl rfl rfl)
  | late hphase => exact .of_log [] rfl (.free rfl rfl rfl rfl)
  | woke hphase => exact .of_log [] rfl (.free rfl rfl rfl rfl)
  | reading hphase => exact .of_log [] rfl (.free rfl rfl rfl rfl)
  | strayed hphase => exact .of_log [] rfl (.free rfl rfl rfl rfl)
  | corrected hphase =>
      exact .of_log [_] rfl
        (.free rfl rfl (spentBy_other rfl _) (successesOf_other rfl _))
  | stopped hphase =>
      exact .of_log [_] rfl
        (.free rfl rfl (spentBy_other rfl _) (successesOf_other rfl _))
  | sent hphase hsigned hnow hclock =>
      cases hpermit : s.pendingRetryPermit with
      | none =>
          refine .of_log [_, _] rfl (.free hpermit.symm rfl ?_ ?_)
          · rw [spentBy_other rfl, spentBy_other rfl]
            rfl
          · rw [successesOf_other rfl, successesOf_other rfl]
            rfl
      | some permit =>
          refine .of_log [_, _, .permitCommitted permit] rfl
            (.committed rfl hpermit rfl rfl ?_ ?_)
          · rw [spentBy_other rfl, spentBy_other rfl]
            exact List.sum_cons
          · rw [successesOf_other rfl, successesOf_other rfl]
            exact successesOf_other rfl _
  | succeeded hphase hstays hclock =>
      have hnone := permit_of_inFlight hd hphase
      refine .of_log [_, _] rfl (.succeeded rfl hnone hnone ?_ ?_)
      · rw [succeed, spentBy_other rfl, spentBy_other rfl]
      · rw [succeed, successesOf_other rfl, successesOf,
          List.countP_cons_of_pos rfl]
        rfl
  | scheduled hphase =>
      have hnone := permit_of_inFlight hd hphase
      obtain ⟨found, hfound, error, permit, left, event, hquota, hpermit,
        hlog⟩ := step_acquires h rfl
      rw [← hunder] at hfound
      obtain rfl := SendLabel.quota_under hfound
      refine .of_log [_, _] hlog ?_
      have hleft :
          [SendEvent.observed event, .permitAcquired error permit].foldr
              SendEvent.settle found = left := by
        show (found.acquire error).elim found Prod.snd = left
        rw [hquota]
        rfl
      rw [hleft]
      refine .acquired rfl hnone hquota hpermit rfl ?_ ?_
      · rw [hlog, spentBy_other rfl, spentBy_other rfl]
      · rw [hlog, successesOf_other rfl, successesOf_other rfl]

end Charges

end SendState

/-! ## The slots of the shared counter -/

/-- The permit that an operation holds. -/
def permitIn (held : List Held) (op : Nat) : Option RetryPermit :=
  (takeHeld op held).map fun x => x.1.permit

theorem permitIn_cons (x : Held) (held : List Held) (op : Nat) :
    permitIn (x :: held) op = if x.op = op then
      some x.permit else permitIn held op := by
  rw [permitIn, takeHeld]
  split
  · rfl
  · rw [Option.map_map]
    rfl

theorem takeHeld_of_permitIn {held : List Held} {op : Nat}
    {permit : RetryPermit} (h : permitIn held op = some permit) :
    ∃ x rest, takeHeld op held = some (x, rest) ∧ x.permit = permit := by
  obtain ⟨⟨x, rest⟩, hx, hpermit⟩ := Option.map_eq_some_iff.mp h
  exact ⟨x, rest, hx, hpermit⟩

theorem takeHeld_of_permitIn_none {held : List Held} {op : Nat}
    (h : permitIn held op = none) :
    takeHeld op held = none :=
  Option.map_eq_none_iff.mp h

theorem permitIn_of_not_mem {op : Nat} :
    ∀ {held : List Held}, op ∉ held.map Held.op → permitIn held op = none
  | [], _ => rfl
  | x :: held, h => by
      rw [List.map_cons, List.mem_cons, not_or] at h
      rw [permitIn_cons, if_neg (Ne.symm h.1)]
      exact permitIn_of_not_mem h.2

/-- With one slot for each operation, a permit that is taken leaves the
others. -/
theorem permitIn_rest {op : Nat} : ∀ {held rest : List Held} {x : Held},
    takeHeld op held = some (x, rest) →
    (held.map Held.op).Nodup → ∀ i, permitIn rest i = if i = op then
      none else permitIn held i
  | [], _, _, h, _, _ => nomatch h
  | y :: held, rest, x, h, hnodup, i => by
      rw [List.map_cons, List.nodup_cons] at hnodup
      rw [takeHeld] at h
      split at h
      · next hop =>
          cases h
          rw [permitIn_cons, hop]
          by_cases hi : i = op
          · rw [if_pos hi, hi]
            exact permitIn_of_not_mem (hop ▸ hnodup.1)
          · rw [if_neg hi, if_neg (Ne.symm hi)]
      · next hop =>
          obtain ⟨⟨z, others⟩, hz, heq⟩ := Option.map_eq_some_iff.mp h
          cases heq
          have ih := permitIn_rest hz hnodup.2 i
          rw [permitIn_cons, permitIn_cons, ih]
          by_cases hi : i = op
          · rw [if_pos hi, if_pos hi, if_neg (fun hy => hop (hy.trans hi))]
          · rw [if_neg hi, if_neg hi]

def isRestored : QuotaEvent → Bool
  | .restored _ => true
  | _ => false

/-- How often a success gave tokens back. -/
def restorations (history : List QuotaEvent) : Nat := history.countP isRestored

theorem restored_step {t t' : Shared} {l : QuotaLabel} (h : t.step l = some t')
    (hb : Balanced t)
    (ht : restoredBySuccess t.history ≤ 14 * restorations t.history) :
    restoredBySuccess t'.history ≤ 14 * restorations t'.history := by
  rcases Shared.step_cases h with rfl | ⟨op, c, p, q, -, -, rfl⟩ |
    ⟨op, x, rest, -, rfl⟩ | ⟨op, rfl⟩ |
    ⟨op, x, rest, -, rfl⟩ | ⟨op, rfl⟩
  · exact ht
  · exact ht
  · exact ht
  · exact ht
  · exact ht
  · have hlast := hb.last_ok op
    have htokens :=
      RetryQuota.replenish_tokens hb.tokens_le (t.lastRetryCost op) hlast
    have hamount :
      (t.quota.replenishAfterSuccess
        (t.lastRetryCost op)).tokens - t.quota.tokens ≤ 14 := by omega
    rw [restoredBySuccess, restorations, List.countP_cons_of_pos rfl]
    exact (Nat.add_le_add hamount ht).trans_eq (by rw [restorations]; omega)

/-! ## The fleet refines the counter -/

namespace QuotaUser

/-- Its loop is at the end of a run. -/
def Reached (user : QuotaUser) : Prop :=
  ∃ started labels, user.state.Reaches user.client user.call started labels

theorem reached_start (input : QuotaCall) : (start input).Reached :=
  ⟨input.started, [], rfl⟩

theorem act_cases {user user' : QuotaUser} {quota quota' : RetryQuota}
    {label : UserLabel} (h : user.act quota label = some (user', quota')) :
    user.live = true ∧ ((label = .drop ∧ user' = { user with live := false } ∧
        quota' = user.state.release quota) ∨
      ∃ l s, label = .step l ∧
        user.state.step user.client user.call (l.under quota) = some s ∧
        user' = ⟨user.client, user.call, s, !s.isOver⟩ ∧
        quota' = if s.isOver then s.release (user.state.charge s quota)
            else user.state.charge s quota) := by
  cases label with
  | drop =>
      rw [act] at h
      split at h
      · next hlive =>
          cases h
          exact ⟨hlive, Or.inl ⟨rfl, rfl, rfl⟩⟩
      · cases h
  | step l =>
      rw [act] at h
      split at h
      · next hlive =>
          refine ⟨hlive, Or.inr ?_⟩
          split at h
          · cases h
          · next s hstep =>
              dsimp only at h
              split at h
              · next hover =>
                  cases h
                  exact ⟨l, s, rfl, hstep, by rw [hover]; rfl,
                    by rw [if_pos hover]⟩
              · next hover =>
                  cases h
                  exact ⟨l, s, rfl, hstep,
                    by rw [Bool.eq_false_iff.mpr hover]; rfl, by rw [if_neg hover]⟩
      · cases h

theorem reached_act {user user' : QuotaUser} {quota quota' : RetryQuota}
    {label : UserLabel} (h : user.act quota label = some (user', quota'))
    (hr : user.Reached) : user'.Reached := by
  obtain ⟨-, ⟨-, rfl, -⟩ | ⟨l, s, -, hstep, rfl, -⟩⟩ := act_cases h
  · exact hr
  · obtain ⟨started, labels, hrun⟩ := hr
    exact ⟨started, labels ++ [l.under quota],
      (Lib.exec_append _ hrun).trans (Lib.exec_of_step hstep [])⟩

end QuotaUser

/-- The fleet and the counter agree: on the quota, on what each operation holds
and last paid, and on what was held, spent and how often something succeeded. -/
structure Agrees (f : Fleet) (t : Shared) : Prop where
  quota : t.quota = f.shared
  permits : ∀ i, permitIn t.held i = f.members[i]?.bind QuotaUser.permit
  costs : ∀ i, t.lastRetryCost i = f.members[i]?.bind QuotaUser.lastRetryCost
  held : heldCost t.held = f.total QuotaUser.held
  spent : committedCost t.history = f.total QuotaUser.spent
  successes : restorations t.history = f.total QuotaUser.successes

/-- They agree, and each of them is in a state that it can come to. -/
structure Mirrors (f : Fleet) (t : Shared) : Prop extends Agrees f t where
  restored : restoredBySuccess t.history ≤ 14 * restorations t.history
  balanced : Balanced t
  reached : ∀ user ∈ f.members, user.Reached

namespace Mirrors

variable {f : Fleet} {t t' : Shared} {i : Nat} {user user' : QuotaUser}
  {quota' : RetryQuota}

theorem bind_concat {α β : Type} (l : List α) (x : α) (g : α → Option β)
    (hg : g x = none) (i : Nat) :
    ((l ++ [x])[i]?).bind g = (l[i]?).bind g := by
  rcases Nat.lt_trichotomy i l.length with hlt | rfl | hgt
  · rw [List.getElem?_append_left hlt]
  · rw [List.getElem?_concat_length, List.getElem?_eq_none le_rfl]
    exact hg
  · rw [List.getElem?_eq_none hgt.le,
      List.getElem?_eq_none (by rw [List.length_append]; exact hgt)]

theorem bind_set {α β : Type} {l : List α} {i : Nat} {x : α}
    (hx : l[i]? = some x) (y : α) (g : α → Option β) (j : Nat) :
    ((l.set i y)[j]?).bind g = if j = i then g y else (l[j]?).bind g := by
  have hlt := (List.getElem?_eq_some_iff.mp hx).1
  by_cases hj : j = i
  · rw [if_pos hj, hj, List.getElem?_set_self hlt]
    rfl
  · rw [if_neg hj, List.getElem?_set_ne (Ne.symm hj)]

theorem join (h : Mirrors f t) (input : QuotaCall) :
    Mirrors { f with members := f.members ++ [QuotaUser.start input] } t := by
  have hinitial : ∀ (c : S3Client) (call : SignedSend) (started : Instant),
      (SendState.initial c call started).pendingRetryPermit = none ∧
        (SendState.initial c call started).lastRetryCost = none ∧
        (SendState.initial c call started).log = [] := by
    intro c call started
    rw [SendState.initial]
    split
    · exact ⟨rfl, rfl, rfl⟩
    · exact ⟨rfl, rfl, rfl⟩
  obtain ⟨hpermit, hcost, hlog⟩ :=
    hinitial input.client input.call input.started
  have hnone : (QuotaUser.start input).permit = none := by
    rw [QuotaUser.permit]
    split
    · exact hpermit
    · rfl
  have hfree : (QuotaUser.start input).lastRetryCost = none := by
    rw [QuotaUser.lastRetryCost]
    split
    · exact hcost
    · rfl
  refine ⟨⟨h.quota, ?_, ?_, ?_, ?_, ?_⟩, h.restored, h.balanced, ?_⟩
  · intro i
    rw [h.permits]
    exact (bind_concat _ _ _ hnone i).symm
  · intro i
    rw [h.costs]
    exact (bind_concat _ _ _ hfree i).symm
  · rw [Lib.Fleet.total_join, h.held, QuotaUser.held, hnone]
    rfl
  · rw [Lib.Fleet.total_join, h.spent, QuotaUser.spent, QuotaUser.start, hlog]
    rfl
  · rw [Lib.Fleet.total_join, h.successes, QuotaUser.successes, QuotaUser.start,
      hlog]
    rfl
  · exact Lib.Fleet.forall_join h.reached (QuotaUser.reached_start input)

theorem acts (h : Mirrors f t) {ls : List QuotaLabel}
    (ht : Lib.exec Shared.step t ls = some t')
    (huser : f.members[i]? = some user) (hquota : t'.quota = quota')
    (hpermits : ∀ j, permitIn t'.held j = if j = i then
      user'.permit else permitIn t.held j)
    (hcosts : ∀ j, t'.lastRetryCost j = if j = i then
      user'.lastRetryCost else t.lastRetryCost j)
    (hheld : heldCost t'.held + user.held = heldCost t.held + user'.held)
    (hspent : committedCost t'.history + user.spent =
      committedCost t.history + user'.spent)
    (hsuccesses : restorations t'.history + user.successes =
      restorations t.history + user'.successes)
    (hreached : user'.Reached) :
    ∃ ls t', Lib.exec Shared.step t ls = some t' ∧
    Mirrors ⟨f.members.set i user', quota'⟩ t' := by
  have htotal := fun weight => Lib.Fleet.total_act huser user' quota' weight
  have hinvariant : Balanced t' ∧
      restoredBySuccess t'.history ≤ 14 * restorations t'.history :=
    Lib.exec_invariant
      (I := fun t => Balanced t ∧
        restoredBySuccess t.history ≤ 14 * restorations t.history)
      (fun hstep hi =>
        ⟨balanced_step hstep hi.1, restored_step hstep hi.1 hi.2⟩) ht
          ⟨h.balanced, h.restored⟩
  refine ⟨ls, t', ht, ⟨hquota, ?_, ?_, ?_, ?_, ?_⟩, hinvariant.2, hinvariant.1,
    ?_⟩
  · intro j
    rw [hpermits, bind_set huser, h.permits]
  · intro j
    rw [hcosts, bind_set huser, h.costs]
  · have hsum := htotal QuotaUser.held
    rw [h.held] at hheld
    omega
  · have hsum := htotal QuotaUser.spent
    rw [h.spent] at hspent
    omega
  · have hsum := htotal QuotaUser.successes
    rw [h.successes] at hsuccesses
    omega
  · exact Lib.Fleet.forall_set h.reached hreached

theorem permit_eq (h : Mirrors f t) (huser : f.members[i]? = some user) :
    permitIn t.held i = user.permit := by
  rw [h.permits, huser]
  rfl

theorem cost_eq (h : Mirrors f t) (huser : f.members[i]? = some user) :
    t.lastRetryCost i = user.lastRetryCost := by
  rw [h.costs, huser]
  rfl

theorem setLast_apply (t : Shared) (op : Nat) (cost : Option Nat) (j : Nat) :
    t.setLast op cost j = if j = op then cost else t.lastRetryCost j :=
  rfl

/-- The end of an operation that did not succeed: its permit goes back. -/
theorem finishes (h : Mirrors f t) (huser : f.members[i]? = some user)
    (hquota : quota' = user.permit.elim f.shared fun permit =>
      permit.drop f.shared)
    (hpermit : user'.permit = none) (hcost : user'.lastRetryCost = none)
    (hspent : user'.spent = user.spent)
    (hsuccesses : user'.successes = user.successes) (hreached : user'.Reached) :
    ∃ ls t', Lib.exec Shared.step t ls = some t' ∧
    Mirrors ⟨f.members.set i user', quota'⟩ t' := by
  have hheld' : user'.held = 0 := by
    rw [QuotaUser.held, hpermit]
    rfl
  have hcosts : ∀ j, t.setLast i none j = if j = i then
      user'.lastRetryCost else t.lastRetryCost j := by
    intro j
    rw [setLast_apply, hcost]
  cases huserPermit : user.permit with
  | none =>
      have hslot :=
        takeHeld_of_permitIn_none ((h.permit_eq huser).trans huserPermit)
      have hstep :
          t.step (.finish i) =
              some { t with lastRetryCost := t.setLast i none } := by
        rw [Shared.step, hslot]
      refine h.acts
        (Lib.exec_of_step hstep []) huser ?_ ?_ hcosts ?_ ?_ ?_ hreached
      · rw [hquota, huserPermit]
        exact h.quota
      · intro j
        split
        · next hj => rw [hj, hpermit, h.permit_eq huser, huserPermit]
        · rfl
      · rw [hheld', QuotaUser.held, huserPermit]
        rfl
      · rw [hspent]
      · rw [hsuccesses]
  | some permit =>
      obtain ⟨x, rest, htake, rfl⟩ :=
        takeHeld_of_permitIn ((h.permit_eq huser).trans huserPermit)
      have hstep : t.step (.finish i) = some { t with
          quota := x.permit.drop t.quota
          held := rest
          lastRetryCost := t.setLast i none
          history := .refunded x.id :: t.history } := by
        rw [Shared.step, htake]
      refine h.acts
        (Lib.exec_of_step hstep []) huser ?_ ?_ hcosts ?_ ?_ ?_ hreached
      · rw [hquota, huserPermit, ← h.quota]
        rfl
      · intro j
        rw [hpermit]
        exact permitIn_rest htake h.balanced.slots j
      · rw [hheld', QuotaUser.held, huserPermit,
          heldCost_perm (takeHeld_perm htake), heldCost, heldCost,
          List.map_cons, List.sum_cons]
        exact Nat.add_comm _ _
      · rw [hspent]
        rfl
      · rw [hsuccesses]
        rfl

theorem commits (h : Mirrors f t) (huser : f.members[i]? = some user)
    {permit : RetryPermit} (hbefore : user.permit = some permit)
    (hpermit : user'.permit = none)
    (hcost : user'.lastRetryCost = some permit.cost)
    (hspent : user'.spent = permit.cost + user.spent)
    (hsuccesses : user'.successes = user.successes) (hreached : user'.Reached) :
    ∃ ls t', Lib.exec Shared.step t ls = some t' ∧
    Mirrors ⟨f.members.set i user', f.shared⟩ t' := by
  obtain ⟨x, rest, htake, rfl⟩ :=
    takeHeld_of_permitIn ((h.permit_eq huser).trans hbefore)
  have hstep : t.step (.commit i) = some { t with
      quota := t.quota
      held := rest
      lastRetryCost := t.setLast i (some x.permit.cost)
      history :=
        .committed x.id x.classification x.permit.cost :: t.history } := by
    rw [Shared.step, htake]
    rfl
  have hheld' : user'.held = 0 := by
    rw [QuotaUser.held, hpermit]
    rfl
  refine h.acts
    (Lib.exec_of_step hstep []) huser h.quota ?_ ?_ ?_ ?_ ?_ hreached
  · intro j
    rw [hpermit]
    exact permitIn_rest htake h.balanced.slots j
  · intro j
    rw [hcost]
    exact setLast_apply _ _ _ _
  · rw [hheld', QuotaUser.held, hbefore, heldCost_perm (takeHeld_perm htake),
      heldCost, heldCost,
      List.map_cons, List.sum_cons]
    exact Nat.add_comm _ _
  · rw [hspent, committedCost]
    omega
  · rw [hsuccesses]
    rfl

theorem acquires (h : Mirrors f t) (huser : f.members[i]? = some user)
    {classification : RetryClassification} {permit : RetryPermit}
    (hbefore : user.permit = none)
    (hquota : f.shared.acquire classification = some (permit, quota'))
    (hpermit : user'.permit = some permit)
    (hcost : user'.lastRetryCost = user.lastRetryCost)
    (hspent : user'.spent = user.spent)
    (hsuccesses : user'.successes = user.successes) (hreached : user'.Reached) :
    ∃ ls t', Lib.exec Shared.step t ls = some t' ∧
    Mirrors ⟨f.members.set i user', quota'⟩ t' := by
  have hslot := takeHeld_of_permitIn_none ((h.permit_eq huser).trans hbefore)
  have hstep : t.step (.acquire i classification) = some { t with
      quota := quota'
      held := ⟨t.nextId, i, classification, permit⟩ :: t.held
      nextId := t.nextId + 1
      history := .acquired t.nextId :: t.history } := by
    rw [Shared.step, hslot]
    dsimp only
    rw [h.quota, hquota]
  refine h.acts (Lib.exec_of_step hstep []) huser rfl ?_ ?_ ?_ ?_ ?_ hreached
  · intro j
    rw [permitIn_cons, hpermit]
    by_cases hj : j = i
    · rw [if_pos hj.symm, if_pos hj]
    · rw [if_neg (Ne.symm hj), if_neg hj]
  · intro j
    split
    · next hj => rw [hj, hcost, ← h.cost_eq huser]
    · rfl
  · rw [QuotaUser.held, QuotaUser.held, hbefore, hpermit, heldCost, heldCost,
      List.map_cons, List.sum_cons]
    exact Nat.add_comm permit.cost _
  · rw [hspent]
    rfl
  · rw [hsuccesses]
    rfl

theorem succeeds (h : Mirrors f t) (huser : f.members[i]? = some user)
    (hbefore : user.permit = none)
    (hquota : quota' = f.shared.replenishAfterSuccess user.lastRetryCost)
    (hpermit : user'.permit = none) (hcost : user'.lastRetryCost = none)
    (hspent : user'.spent = user.spent)
    (hsuccesses : user'.successes = user.successes + 1)
    (hreached : user'.Reached) :
    ∃ ls t', Lib.exec Shared.step t ls = some t' ∧
    Mirrors ⟨f.members.set i user', quota'⟩ t' := by
  have hslot := takeHeld_of_permitIn_none ((h.permit_eq huser).trans hbefore)
  have hstep : t.step (.succeed i) = some { t with
      quota := t.quota.replenishAfterSuccess (t.lastRetryCost i)
      lastRetryCost := t.setLast i none
      history :=
        .restored
          ((t.quota.replenishAfterSuccess
            (t.lastRetryCost i)).tokens - t.quota.tokens) ::
        t.history } := by
    rw [Shared.step, hslot]
  refine h.acts (Lib.exec_of_step hstep []) huser ?_ ?_ ?_ ?_ ?_ ?_ hreached
  · rw [hquota, h.quota, h.cost_eq huser]
  · intro j
    split
    · next hj => rw [hj, hpermit, h.permit_eq huser, hbefore]
    · rfl
  · intro j
    rw [hcost]
    exact setLast_apply _ _ _ _
  · rw [QuotaUser.held, QuotaUser.held, hbefore, hpermit]
  · rw [hspent]
    rfl
  · rw [hsuccesses, restorations, List.countP_cons_of_pos rfl, restorations]
    omega

theorem continues (h : Mirrors f t) (huser : f.members[i]? = some user)
    (hpermit : user'.permit = user.permit)
    (hcost : user'.lastRetryCost = user.lastRetryCost)
    (hspent : user'.spent = user.spent)
    (hsuccesses : user'.successes = user.successes) (hreached : user'.Reached) :
    ∃ ls t', Lib.exec Shared.step t ls = some t' ∧
    Mirrors ⟨f.members.set i user', f.shared⟩ t' := by
  refine h.acts (Lib.exec_nil t) huser h.quota ?_ ?_ ?_ ?_ ?_ hreached
  · intro j
    split
    · next hj => rw [hj, hpermit, h.permit_eq huser]
    · rfl
  · intro j
    split
    · next hj => rw [hj, hcost, h.cost_eq huser]
    · rfl
  · rw [QuotaUser.held, QuotaUser.held, hpermit]
  · rw [hspent]
  · rw [hsuccesses]

theorem user_step (h : Mirrors f t) {l : SendLabel} {s : SendState}
    (huser : f.members[i]? = some user) (hlive : user.live = true)
    (hl : user.state.step user.client user.call (l.under f.shared) = some s)
    (huser' : user' = ⟨user.client, user.call, s, !s.isOver⟩)
    (hquota' : quota' = if s.isOver then
      s.release (user.state.charge s f.shared) else
      user.state.charge s f.shared) (hreached : user'.Reached) :
    ∃ ls t', Lib.exec Shared.step t ls = some t' ∧
    Mirrors ⟨f.members.set i user', quota'⟩ t' := by
  have hd : SendState.Disciplined user.client user.call user.state := by
    obtain ⟨started, labels, hrun⟩ :=
      h.reached user (List.mem_of_getElem? huser)
    exact SendState.disciplined_of_reaches hrun
  have hpermit : user.permit = user.state.pendingRetryPermit := if_pos hlive
  have hcost : user.lastRetryCost = user.state.lastRetryCost := if_pos hlive
  -- what the members that come after a step show
  have hended : s.isOver = true → user'.permit = none ∧
      user'.lastRetryCost = none := by
    intro hover
    rw [huser', hover]
    exact ⟨rfl, rfl⟩
  have hgoes : s.isOver = false → user'.permit = s.pendingRetryPermit ∧
      user'.lastRetryCost = s.lastRetryCost := by
    intro hover
    rw [huser', hover]
    exact ⟨rfl, rfl⟩
  have hspent' : user'.spent = spentBy s.log := by rw [huser', QuotaUser.spent]
  have hsuccesses' : user'.successes = successesOf s.log := by
    rw [huser', QuotaUser.successes]
  have hcharge := SendState.charge_of_step hd hl
  generalize user.state.charge s f.shared = charged at hcharge hquota'
  cases hcharge with
  | free hpermits hcosts hspent hsuccess =>
      cases hover : s.isOver with
      | true =>
          refine h.finishes huser ?_ (hended hover).1 (hended hover).2
            (hspent'.trans hspent)
            (hsuccesses'.trans hsuccess) hreached
          rw [hquota', if_pos hover, SendState.release, hpermits, hpermit]
      | false =>
          rw [hquota', if_neg (Bool.eq_false_iff.mp hover)]
          refine h.continues huser ?_ ?_ (hspent'.trans hspent)
            (hsuccesses'.trans hsuccess) hreached
          · rw [(hgoes hover).1, hpermits, hpermit]
          · rw [(hgoes hover).2, hcosts, hcost]
  | committed hover hbefore hpermits hcosts hspent hsuccess =>
      rw [hquota', if_neg (Bool.eq_false_iff.mp hover)]
      exact h.commits huser (hpermit.trans hbefore)
        ((hgoes hover).1.trans hpermits)
        ((hgoes hover).2.trans hcosts) (hspent'.trans hspent)
          (hsuccesses'.trans hsuccess) hreached
  | acquired hover hbefore hquota hpermits hcosts hspent hsuccess =>
      rw [hquota', if_neg (Bool.eq_false_iff.mp hover)]
      exact h.acquires huser (hpermit.trans hbefore) hquota
        ((hgoes hover).1.trans hpermits)
        ((hgoes hover).2.trans (hcosts.trans hcost.symm)) (hspent'.trans hspent)
          (hsuccesses'.trans hsuccess)
        hreached
  | succeeded hover hbefore hpermits hspent hsuccess =>
      refine h.succeeds huser (hpermit.trans hbefore) ?_ (hended hover).1
        (hended hover).2
        (hspent'.trans hspent) (hsuccesses'.trans hsuccess) hreached
      rw [hquota', if_pos hover, SendState.release, hpermits, hcost]
      rfl

theorem fleet_step (h : Mirrors f t) {label : Fleet.Label} {f' : Fleet}
    (hstep : f.step label = some f') :
    ∃ ls t', Lib.exec Shared.step t ls = some t' ∧ Mirrors f' t' := by
  cases label with
  | join input =>
      cases hstep
      exact ⟨[], t, rfl, h.join input⟩
  | act i label =>
      obtain ⟨user, user', quota', huser, hact, rfl⟩ := Lib.Fleet.step_act hstep
      have hreached' :=
        QuotaUser.reached_act hact (h.reached user (List.mem_of_getElem? huser))
      obtain ⟨hlive, ⟨-, rfl, rfl⟩ | ⟨l, s, -, hl, huser', hquota'⟩⟩ :=
        QuotaUser.act_cases hact
      · have hpermit : user.permit = user.state.pendingRetryPermit :=
          if_pos hlive
        refine h.finishes huser ?_ rfl rfl rfl rfl hreached'
        rw [SendState.release, hpermit]
      · exact h.user_step huser hlive hl huser' hquota' hreached'

theorem initial : Mirrors Fleet.new Shared.init where
  quota := rfl
  permits _ := rfl
  costs _ := rfl
  held := rfl
  spent := rfl
  successes := rfl
  restored := Nat.zero_le _
  balanced := balanced_init
  reached _ huser := absurd huser List.not_mem_nil

end Mirrors

/-- Every run of the fleet is mirrored by one of the counter, step by step. -/
theorem Mirrors.of_run {labels : List Fleet.Label} {f : Fleet}
    (h : Lib.exec Fleet.step Fleet.new labels = some f) :
    ∃ moves : List (List QuotaLabel), moves.length = labels.length ∧
      (∀ k, ∃ g t, Lib.exec Fleet.step Fleet.new (labels.take k) = some g ∧
        Lib.exec Shared.step Shared.init (moves.take k).flatten = some t ∧
        Mirrors g t) ∧
      ∃ t, Lib.exec Shared.step Shared.init moves.flatten = some t ∧
      Mirrors f t := by
  have hsimulated :
      ∀ {f : Fleet} {label : Fleet.Label} {f' : Fleet} {t : Shared},
      f.step label = some f' → Mirrors f t →
        ∃ ls t', Lib.exec Shared.step t ls = some t' ∧ Mirrors f' t' :=
    fun hstep hmirrors => hmirrors.fleet_step hstep
  obtain ⟨moves, hlength, hmoves⟩ := Lib.exec_simulates hsimulated h initial
  obtain ⟨g, t, hg, ht, hmirrors⟩ := hmoves labels.length
  rw [List.take_length] at hg
  rw [← hlength, List.take_length] at ht
  obtain rfl := Option.some.inj (hg.symm.trans h)
  exact ⟨moves, hlength, hmoves, t, ht, hmirrors⟩

/-- **The loops use the quota as the four atomic operations do, and in no other
way**: in every interleaving of any operations on any handles, with futures
dropped anywhere, each step of a loop is some moves of the counter, and after
any number of steps the loops and the counter, after the moves for these steps,
agree. -/
theorem fleet_refines_quota {labels : List Fleet.Label} {f : Fleet}
    (h : Lib.exec Fleet.step Fleet.new labels = some f) :
    ∃ moves : List (List QuotaLabel), moves.length = labels.length ∧
      (∀ k, ∃ g t, Lib.exec Fleet.step Fleet.new (labels.take k) = some g ∧
        Lib.exec Shared.step Shared.init (moves.take k).flatten = some t ∧
        Agrees g t) ∧
      ∃ t, Lib.exec Shared.step Shared.init moves.flatten = some t ∧
      Agrees f t := by
  obtain ⟨moves, hlength, hmoves, t, ht, hmirrors⟩ := Mirrors.of_run h
  refine ⟨moves, hlength, fun k => ?_, t, ht, hmirrors.toAgrees⟩
  obtain ⟨g, t, hg, ht, hmirrors⟩ := hmoves k
  exact ⟨g, t, hg, ht, hmirrors.toAgrees⟩

/-! ## What all of them put on the wire -/

/-- How many requests at a stage may still be sent without a permit. -/
def Stage.free : Stage → Nat
  | .fresh => 1
  | .corrected _ => 1
  | _ => 0

namespace Discipline

variable {rules : AttemptRules} {stage : Stage} {log : List SendEvent}

/-- Beyond its first request and its correction an operation sends only what it
paid for. -/
theorem attempts_paid (h : Discipline rules stage log) :
    stage.attempts + stage.free ≤ 1 + correctionsOf log + retriesOf log := by
  induction h with
  | start => exact le_rfl
  | first _ _ ih =>
      rw [correctionsOf_other rfl, correctionsOf_other rfl, retriesOf_other rfl,
        retriesOf_other rfl]
      exact ih
  | @correct n log _ _ _ ih =>
      have hcorrected :
          correctionsOf (.observed (.redirected rules.method n) :: log) =
              correctionsOf log + 1 :=
        List.countP_cons_of_pos rfl
      rw [hcorrected, retriesOf_other rfl]
      simp only [Stage.attempts, Stage.free] at ih ⊢
      omega
  | resendCorrected _ _ ih =>
      rw [correctionsOf_other rfl, correctionsOf_other rfl, retriesOf_other rfl,
        retriesOf_other rfl]
      exact ih
  | schedule _ _ _ _ _ ih =>
      rw [correctionsOf_other rfl, correctionsOf_other rfl, retriesOf_other rfl,
        retriesOf_other rfl]
      exact ih
  | @resend n redirected permit t log _ _ ih =>
      have hpaid :
        retriesOf (.permitCommitted permit :: log) = retriesOf log + 1 :=
          List.countP_cons_of_pos rfl
      rw [correctionsOf_other rfl, correctionsOf_other rfl,
        correctionsOf_other rfl, retriesOf_other rfl,
        retriesOf_other rfl, hpaid]
      simp only [Stage.attempts, Stage.free] at ih ⊢
      omega
  | succeed _ ih =>
      rw [correctionsOf_other rfl, correctionsOf_other rfl, retriesOf_other rfl,
        retriesOf_other rfl]
      exact ih
  | fail _ ih =>
      rw [correctionsOf_other rfl, retriesOf_other rfl]
      exact ih
  | leave _ _ ih => exact (Nat.le_add_right _ _).trans ih
  | stray _ _ ih => exact ih

theorem permit_cost {n : Nat} {redirected : Bool} {permit : RetryPermit}
    (h : Discipline rules (.scheduled n redirected permit) log) :
    5 ≤ permit.cost := by
  cases h with
  | schedule _ _ _ _ hcost =>
      rcases retryCost_some hcost with ⟨-, hcost⟩ | ⟨-, hcost⟩ <;> omega

theorem retries_cost (h : Discipline rules stage log) :
    5 * retriesOf log ≤ spentBy log := by
  induction h with
  | start => exact le_rfl
  | first _ _ ih =>
      rw [spentBy_other rfl, spentBy_other rfl]
      exact ih
  | correct _ _ _ ih =>
      rw [spentBy_other rfl]
      exact ih
  | resendCorrected _ _ ih =>
      rw [spentBy_other rfl, spentBy_other rfl]
      exact ih
  | schedule _ _ _ _ _ ih =>
      rw [spentBy_other rfl, spentBy_other rfl]
      exact ih
  | @resend n redirected permit t log hbefore _ ih =>
      have hcost := hbefore.permit_cost
      have hpaid :
        retriesOf (.permitCommitted permit :: log) = retriesOf log + 1 :=
          List.countP_cons_of_pos rfl
      have hspent :
        spentBy (.permitCommitted permit :: log) = permit.cost + spentBy log :=
          List.sum_cons
      rw [retriesOf_other rfl, retriesOf_other rfl, hpaid, spentBy_other rfl,
        spentBy_other rfl, hspent]
      omega
  | succeed _ ih =>
      rw [spentBy_other rfl, spentBy_other rfl]
      exact ih
  | fail _ ih =>
      rw [spentBy_other rfl]
      exact ih
  | leave _ _ ih => exact ih
  | stray _ _ ih => exact ih

end Discipline

namespace QuotaUser

variable {user : QuotaUser}

theorem disciplined (h : user.Reached) :
    SendState.Disciplined user.client user.call user.state := by
  obtain ⟨started, labels, hrun⟩ := h
  exact SendState.disciplined_of_reaches hrun

theorem sent_le (h : user.Reached) :
    user.sent ≤ 1 + user.corrections + user.retries := by
  obtain ⟨stage, -, hdiscipline⟩ := disciplined h
  have hpaid := hdiscipline.attempts_paid
  rw [← hdiscipline.transmissions_length] at hpaid
  exact (Nat.le_add_right _ _).trans hpaid

theorem corrections_le (h : user.Reached) : user.corrections ≤ 1 := by
  obtain ⟨stage, -, hdiscipline⟩ := disciplined h
  refine hdiscipline.corrections_le.trans ?_
  cases stage with
  | fresh => exact Nat.zero_le _
  | corrected n => exact le_rfl
  | scheduled n redirected permit => exact Bool.toNat_le redirected
  | opened n redirected => exact Bool.toNat_le redirected
  | done n success => exact le_rfl

theorem retries_le (h : user.Reached) : 5 * user.retries ≤ user.spent := by
  obtain ⟨stage, -, hdiscipline⟩ := disciplined h
  exact hdiscipline.retries_cost

end QuotaUser

theorem noSuccess_of_restorations {history : List QuotaEvent}
    (h : restorations history = 0) :
    NoSuccess history := by
  intro amount hmem
  exact Bool.false_ne_true
    ((Bool.eq_false_iff.mpr (List.countP_eq_zero.mp h _ hmem)).symm.trans rfl)

/-- **A bound on everything the operations of a client send together.**  Whatever
the policies of the handles allow, however many operations run at once and in
whatever order: the counter holds at most 500 tokens; what it has, what permits
hold and what retries spent are at most 500 and 14 more for each success, and
exactly 500 before the first; each operation sends one request, one more when it
is corrected, and one for each permit it committed, of five tokens or more.  So
`n` operations of which `k` succeeded have sent at most `2 n + (500 + 14 k) / 5`
requests. -/
theorem fleet_bounded {labels : List Fleet.Label} {f : Fleet}
    (h : Lib.exec Fleet.step Fleet.new labels = some f) :
    f.shared.tokens ≤ 500 ∧
      f.shared.tokens + f.total QuotaUser.held + f.total QuotaUser.spent ≤
        500 + 14 * f.total QuotaUser.successes ∧
      (f.total QuotaUser.successes = 0 →
        f.shared.tokens + f.total QuotaUser.held + f.total QuotaUser.spent =
          500) ∧
      (∀ user ∈ f.members, user.sent ≤ 1 + user.corrections + user.retries ∧
        user.corrections ≤ 1 ∧
        5 * user.retries ≤ user.spent) ∧
      5 * f.total QuotaUser.sent ≤
        10 * f.members.length + 500 + 14 * f.total QuotaUser.successes := by
  obtain ⟨moves, -, -, t, -, hmirrors⟩ := Mirrors.of_run h
  have hbalanced := hmirrors.balanced
  have hsum := hbalanced.sum_le
  have hrestored := hmirrors.restored
  have htokens : t.quota.tokens = f.shared.tokens :=
    congrArg RetryQuota.tokens hmirrors.quota
  rw [hmirrors.held, hmirrors.spent, htokens] at hsum
  rw [hmirrors.successes] at hrestored
  have hsent :
      1 * f.total QuotaUser.sent ≤
          2 * f.members.length + f.total QuotaUser.retries := by
    refine Lib.Fleet.mul_total_le fun user huser => ?_
    have hpaid := QuotaUser.sent_le (hmirrors.reached user huser)
    have hcorrected := QuotaUser.corrections_le (hmirrors.reached user huser)
    omega
  have hretries :
      5 * f.total QuotaUser.retries ≤
          0 * f.members.length + f.total QuotaUser.spent := by
    refine Lib.Fleet.mul_total_le fun user huser => ?_
    exact (QuotaUser.retries_le (hmirrors.reached user huser)).trans
      (Nat.le_add_left _ _)
  refine ⟨htokens ▸ hbalanced.tokens_le, by omega, ?_, ?_, by omega⟩
  · intro hnone
    have heq :=
      hbalanced.sum_eq
        (noSuccess_of_restorations (hmirrors.successes.trans hnone))
    rwa [hmirrors.held, hmirrors.spent, htokens] at heq
  · intro user huser
    have hreached := hmirrors.reached user huser
    exact ⟨QuotaUser.sent_le hreached, QuotaUser.corrections_le hreached,
      QuotaUser.retries_le hreached⟩

/-! Two calls of the sample: one fails in transport, is to be retried and is
dropped; the other never runs. -/

def sampleQuotaCall : QuotaCall :=
  ⟨SendState.sampleClient, SendState.sampleSend, 0⟩

def sampleFleetLabels : List Fleet.Label :=
  [.join sampleQuotaCall, .join sampleQuotaCall, .act 0 (.step (.check 0)),
    .act 0 (.step (.sign 0 (some sampleSigningEnv) 0)),
    .act 0 (.step (.respond 0 (.error S3Error.transport) SendState.quietEnv)),
      .act 0 .drop]

/-- A call of the sample that goes on. -/
def sampleUser (s : SendState) : QuotaUser :=
  ⟨SendState.sampleClient, SendState.sampleSend, s, true⟩

theorem start_sample : QuotaUser.start sampleQuotaCall =
    sampleUser
      (SendState.initial SendState.sampleClient SendState.sampleSend 0) :=
  rfl

theorem sample_acts {others : List QuotaUser} {quota : RetryQuota}
    {label : SendLabel} {s s' : SendState} {new : List SendEvent}
    (hstep : s.step SendState.sampleClient SendState.sampleSend
      (label.under quota) = some s')
    (hover : s'.isOver = false) (hlog : s'.log = new ++ s.log) :
    Fleet.step ⟨sampleUser s :: others, quota⟩ (.act 0 (.step label)) =
      some ⟨sampleUser s' :: others, new.foldr SendEvent.settle quota⟩ := by
  have hact : (sampleUser s).act quota (.step label) =
      some (sampleUser s', new.foldr SendEvent.settle quota) := by
    have hlive : (sampleUser s).live = true := rfl
    have hstep' :
        (sampleUser s).state.step (sampleUser s).client (sampleUser s).call
          (label.under quota) =
        some s' := hstep
    rw [QuotaUser.act, if_pos hlive, hstep']
    dsimp only
    rw [if_neg (Bool.eq_false_iff.mp hover)]
    exact congrArg (fun left => some (sampleUser s', left))
      (SendState.charge_eq hlog quota)
  rw [Fleet.step, Lib.Fleet.step, List.getElem?_cons_zero]
  dsimp only
  rw [hact]
  rfl

theorem sample_loop :
    ∃ (s₁ s₂ s₃ : SendState) (t : Transmission) (e : RequestEvent),
    SendState.step SendState.sampleClient SendState.sampleSend
        (SendState.initial SendState.sampleClient SendState.sampleSend 0)
          (.check 0) = some s₁ ∧
      s₁.isOver = false ∧ s₁.log = [] ∧
      SendState.step SendState.sampleClient SendState.sampleSend s₁
        (.sign 0 (some sampleSigningEnv) 0) = some s₂ ∧
      s₂.isOver = false ∧ s₂.log = [.sent t, .observed e] ∧
      SendState.step SendState.sampleClient SendState.sampleSend s₂
        (.respond 0 (.error S3Error.transport) SendState.quietEnv) = some s₃ ∧
      s₃.isOver = false ∧
      s₃.log =
        [.observed (.scheduled "GET" 1 S3Error.transport 0),
          .permitAcquired .retryable ⟨14, false⟩] ++
        s₂.log := by
  have hinitial :
      (SendState.initial SendState.sampleClient SendState.sampleSend 0).target =
      SendState.sampleRegionalTarget "us-east-1" := rfl
  obtain ⟨request, hround⟩ := @SendState.sample_attempt
    (SendState.initial SendState.sampleClient SendState.sampleSend 0)
      "us-east-1" SendState.sampleSend 0 rfl
    (Or.inl rfl) (SendState.sample_input hinitial rfl rfl) (by decide)
  rw [SendState.beginAttempt_eq] at hround
  obtain ⟨s₁, hs₁, hround⟩ := Lib.exec_cons hround
  obtain ⟨s₂, hs₂, hround⟩ := Lib.exec_cons hround
  have hchecked :=
    hs₁.symm.trans (SendState.step_check rfl (if_pos (by decide)))
  obtain ⟨hphase, hattempts, hclock, hstarted, t, e, hlog⟩ :
      s₂.phase = .sending ∧ s₂.attemptsCompleted = 1 ∧
      s₂.clock = 0 ∧ s₂.started = 0 ∧
          ∃ t e, s₂.log = [.sent t, .observed e] := by
    rw [Option.some.inj hround]
    exact ⟨rfl, rfl, rfl, rfl, _, _, rfl⟩
  obtain ⟨hover, hempty⟩ : s₁.isOver = false ∧ s₁.log = [] := by
    rw [Option.some.inj hchecked]
    exact ⟨rfl, rfl⟩
  obtain ⟨s₃, hs₃, hwake⟩ :=
    Lib.exec_cons (SendState.sample_retries hphase hattempts hclock hstarted)
  obtain ⟨s₄, hs₄, hend⟩ := Lib.exec_cons hwake
  have hsleeping : s₃.phase = .sleeping := by
    cases SendState.step_turn hs₄ with
    | woke hphase => exact hphase
    | succeeded _ hstays => exact hstays.elim
    | reading _ hstays => exact hstays.elim
    | corrected _ hstays => exact hstays.elim
    | strayed _ hstrays => exact hstrays.elim
    | stopped _ hstays => exact hstays.elim
    | scheduled _ hstays => exact hstays.elim
  have hslept : s₃.log = s₄.log := by
    rw [SendState.step.eq_def, hsleeping] at hs₄
    cases hs₄
    rfl
  refine ⟨s₁, s₂, s₃, t, e, hs₁, hover, hempty, hs₂, ?_, hlog, hs₃, ?_, ?_⟩
  · rw [SendState.isOver, hphase]
  · rw [SendState.isOver, hsleeping]
  · rw [hslept, Option.some.inj hend]
    rfl

theorem sample_fleet : ∃ f, Lib.exec Fleet.step Fleet.new sampleFleetLabels =
    some f ∧ f.members.length = 2 ∧
    f.total QuotaUser.sent = 1 ∧ f.total QuotaUser.successes = 0 := by
  obtain ⟨s₁, s₂, s₃, t, e, hs₁, hover₁, hlog₁, hs₂, hover₂, hlog₂, hs₃, hover₃,
    hlog₃⟩ := sample_loop
  have hjoined :
      Lib.exec Fleet.step Fleet.new
        [.join sampleQuotaCall, .join sampleQuotaCall] =
      some ⟨[QuotaUser.start sampleQuotaCall, QuotaUser.start sampleQuotaCall],
        RetryQuota.new⟩ := rfl
  rw [start_sample] at hjoined
  have hcheck :=
    @sample_acts
      [sampleUser
        (SendState.initial SendState.sampleClient SendState.sampleSend 0)]
    RetryQuota.new (.check 0) _ s₁ [] hs₁ hover₁ hlog₁
  have hsign :=
    @sample_acts
      [sampleUser
        (SendState.initial SendState.sampleClient SendState.sampleSend 0)]
    RetryQuota.new (.sign 0 (some sampleSigningEnv) 0) s₁ s₂
      [.sent t, .observed e] hs₂ hover₂
    (by rw [hlog₂, hlog₁]; rfl)
  have hrespond :=
    @sample_acts
      [sampleUser
        (SendState.initial SendState.sampleClient SendState.sampleSend 0)]
    RetryQuota.new (.respond 0 (.error S3Error.transport) SendState.quietEnv) s₂
      s₃ _ hs₃ hover₃ hlog₃
  have hlogged : s₃.log = [.observed (.scheduled "GET" 1 S3Error.transport 0),
      .permitAcquired .retryable ⟨14, false⟩, .sent t, .observed e] := by
    rw [hlog₃, hlog₂]
    rfl
  refine ⟨_,
    (Lib.exec_append _ hjoined).trans ((Lib.exec_of_step hcheck _).trans
    ((Lib.exec_of_step hsign _).trans
      ((Lib.exec_of_step hrespond [.act 0 .drop]).trans rfl))), rfl, ?_, ?_⟩
  · show (transmissions s₃.log).length + 0 = 1
    rw [hlogged]
    rfl
  · show successesOf s₃.log + 0 = 0
    rw [hlogged]
    rfl

theorem fleet_refines_quota_sample :
    ∃ (f : Fleet) (moves : List (List QuotaLabel)) (t : Shared),
    Lib.exec Fleet.step Fleet.new sampleFleetLabels = some f ∧
      moves.length = 6 ∧ Lib.exec Shared.step Shared.init moves.flatten =
        some t ∧ Agrees f t ∧
      ∃ g t, Lib.exec Fleet.step Fleet.new (sampleFleetLabels.take 5) = some g ∧
        Lib.exec Shared.step Shared.init (moves.take 5).flatten = some t ∧
        Agrees g t := by
  obtain ⟨f, hf, -⟩ := sample_fleet
  obtain ⟨moves, hlength, hsteps, t, hrun, hagrees⟩ := fleet_refines_quota hf
  exact ⟨f, moves, t, hf, hlength, hrun, hagrees, hsteps 5⟩

theorem fleet_bounded_sample :
    ∃ f, Lib.exec Fleet.step Fleet.new sampleFleetLabels = some f ∧
    f.total QuotaUser.sent = 1 ∧
      f.shared.tokens + f.total QuotaUser.held + f.total QuotaUser.spent =
        500 := by
  obtain ⟨f, hf, -, hsent, hnone⟩ := sample_fleet
  exact ⟨f, hf, hsent, (fleet_bounded hf).2.2.1 hnone⟩

end S3Wire
