/-
# `S3Wire.Retry.Quota` — the retry quota shared by a client and its bucket handles

`src/client/mod.rs`, lines 27 to 96.  Every retry an operation sends is paid for
from one counter of 500 tokens, shared by all operations of all clients cloned
from one another.  A permit is acquired when a retry is scheduled, COMMITTED
when the retry is sent, and otherwise REFUNDED when it is dropped — on a signing
failure, at the deadline, or with the future that holds it.  A success restores
the cost of the operation's last retry, or one token.

The four operations of the counter (`acquire`, `commit`, `drop`,
`replenishAfterSuccess`) are single atomic updates, so any number of concurrent
operations is an interleaving of them: `Shared.step`, one label for each, with
the identity of the operation in the label.

The law of the counter is a potential argument.  Nothing is lost between the
three places a token can be in — free, inside a permit that is still held, spent
by a committed one — except at the two clamps, which only ever destroy:

    tokens + held + committed ≤ 500 + restored        always
    tokens + held + committed = 500                    before the first success

`Balanced` is that invariant; `balanced_step` is its one-step lemma.
-/
import S3Wire.Lib.History
import S3Wire.Error

namespace S3Wire

/-! ## The counter -/

def retryQuotaCapacity : Nat := 500
def transientRetryCost : Nat := 14
def throttlingRetryCost : Nat := 5

/-- `u32::saturating_add`. -/
def saturatingAdd32 (a b : Nat) : Nat := min (a + b) (2 ^ 32 - 1)

/-- The tokens that the retries of a client share. -/
structure RetryQuota where
  tokens : Nat
  deriving DecidableEq, Repr

/-- Tokens that were taken for one retry, to be given back unless it is
committed. -/
structure RetryPermit where
  cost : Nat
  committed : Bool
  deriving DecidableEq, Repr

/-- What one retry costs; an error that is never retried has no price. -/
def retryCost : RetryClassification → Option Nat
  | .throttled => some throttlingRetryCost
  | .retryable => some transientRetryCost
  | .never => none

namespace RetryQuota

def new : RetryQuota := ⟨retryQuotaCapacity⟩

/-- The `fetch_update` of `acquire` takes the cost when it is available. -/
def acquire (q : RetryQuota) (classification : RetryClassification) :
    Option (RetryPermit × RetryQuota) :=
  match retryCost classification with
  | none => none
  | some cost =>
      if q.tokens ≥ cost then some (⟨cost, false⟩, ⟨q.tokens - cost⟩) else none

/-- A success gives back what its last retry cost, or one token. -/
def replenishAfterSuccess (q : RetryQuota) (lastRetryCost : Option Nat) :
    RetryQuota :=
  let restored := lastRetryCost.getD 1
  ⟨min (saturatingAdd32 q.tokens restored) retryQuotaCapacity⟩

end RetryQuota

namespace RetryPermit

/-- `commit` consumes the permit: it returns the cost, and the permit it leaves
for the destructor is marked. -/
def commit (p : RetryPermit) : Nat × RetryPermit :=
  (p.cost, { p with committed := true })

/-- The destructor refunds a permit that was not committed. -/
def drop (p : RetryPermit) (q : RetryQuota) : RetryQuota :=
  if p.committed then q else q.replenishAfterSuccess (some p.cost)

end RetryPermit

/-- A granted permit took exactly its cost, and is not yet committed. -/
theorem RetryQuota.acquire_some {q q' : RetryQuota} {c : RetryClassification}
    {p : RetryPermit} (h : q.acquire c = some (p, q')) :
    retryCost c = some p.cost ∧ p.committed = false ∧
    q'.tokens + p.cost = q.tokens := by
  unfold acquire at h
  cases hc : retryCost c with
  | none => simp [hc] at h
  | some cost =>
      simp only [hc] at h
      split at h
      next hle =>
          simp only [Option.some.injEq, Prod.mk.injEq] at h
          obtain ⟨rfl, rfl⟩ := h
          exact ⟨rfl, rfl, Nat.sub_add_cancel hle⟩
      next => cases h

theorem retryCost_some {c : RetryClassification} {n : Nat}
    (h : retryCost c = some n) :
    (c = .throttled ∧ n = 5) ∨ (c = .retryable ∧ n = 14) := by
  cases c with
  | never => cases h
  | retryable => exact Or.inr ⟨rfl, (Option.some.inj h).symm⟩
  | throttled => exact Or.inl ⟨rfl, (Option.some.inj h).symm⟩

/-- Below the capacity the 32-bit addition does not saturate: what remains of a
replenishment is the clamp at 500. -/
theorem RetryQuota.replenish_tokens {q : RetryQuota} (hq : q.tokens ≤ 500)
    (last : Option Nat) (hlast : last.getD 1 ≤ 14) :
    (q.replenishAfterSuccess last).tokens =
      min (q.tokens + last.getD 1) 500 := by
  simp only [replenishAfterSuccess, saturatingAdd32, retryQuotaCapacity]
  omega

/-! ## Interleavings of operations over one quota -/

/-- A permit held in the `pending_retry_permit` of operation `op`. -/
structure Held where
  id : Nat
  op : Nat
  classification : RetryClassification
  permit : RetryPermit
  deriving DecidableEq, Repr

/-- What happened to the quota; the history lists it, latest first. -/
inductive QuotaEvent where
  | acquired (id : Nat)
  | refused
  | committed (id : Nat) (classification : RetryClassification) (cost : Nat)
  | refunded (id : Nat)
  /-- A success, with the number of tokens it added. -/
  | restored (amount : Nat)
  deriving DecidableEq, Repr

/-- One quota and what the operations sharing it hold.  An operation that
starts again under the same number starts without a last cost. -/
structure Shared where
  quota : RetryQuota
  held : List Held
  lastRetryCost : Nat → Option Nat
  nextId : Nat
  history : List QuotaEvent

/-- An atomic operation on the quota, by the operation that makes it. -/
inductive QuotaLabel where
  /-- An error of this classification asks for a permit. -/
  | acquire (op : Nat) (classification : RetryClassification)
  /-- The retry is about to be sent. -/
  | commit (op : Nat)
  /-- The operation returns an error, or its future is dropped. -/
  | finish (op : Nat)
  /-- The operation succeeds. -/
  | succeed (op : Nat)
  deriving DecidableEq, Repr

/-- Take the permit of an operation out of the list. -/
def takeHeld (op : Nat) : List Held → Option (Held × List Held)
  | [] => none
  | h :: hs =>
      if h.op = op then some (h, hs)
      else (takeHeld op hs).map fun (x, rest) => (x, h :: rest)

theorem takeHeld_perm {op : Nat} :
    ∀ {hs : List Held} {h : Held} {rest : List Held},
    takeHeld op hs = some (h, rest) → hs.Perm (h :: rest)
  | [], _, _, heq => nomatch heq
  | x :: hs, h, rest, heq => by
      by_cases hx : x.op = op
      · simp only [takeHeld, hx, if_true, Option.some.injEq, Prod.mk.injEq]
          at heq
        obtain ⟨rfl, rfl⟩ := heq
        exact List.Perm.refl _
      · simp only [takeHeld, hx, if_false, Option.map_eq_some_iff] at heq
        obtain ⟨⟨y, ys⟩, hy, he⟩ := heq
        obtain ⟨rfl, rfl⟩ := Prod.mk.inj he
        exact ((takeHeld_perm hy).cons x).trans (List.Perm.swap y x ys)

theorem takeHeld_none {op : Nat} : ∀ {hs : List Held}, takeHeld op hs = none →
    op ∉ hs.map Held.op
  | [], _ => by simp
  | x :: hs, heq => by
      by_cases hx : x.op = op
      · simp [takeHeld, hx] at heq
      · simp only [takeHeld, hx, if_false, Option.map_eq_none_iff] at heq
        simpa [Ne.symm hx] using takeHeld_none heq

theorem takeHeld_op {op : Nat} :
    ∀ {hs : List Held} {h : Held} {rest : List Held},
    takeHeld op hs = some (h, rest) → h.op = op
  | [], _, _, heq => nomatch heq
  | x :: hs, h, rest, heq => by
      by_cases hx : x.op = op
      · simp only [takeHeld, hx, if_true, Option.some.injEq, Prod.mk.injEq]
          at heq
        exact heq.1 ▸ hx
      · simp only [takeHeld, hx, if_false, Option.map_eq_some_iff] at heq
        obtain ⟨⟨y, ys⟩, hy, he⟩ := heq
        obtain ⟨rfl, rfl⟩ := Prod.mk.inj he
        exact takeHeld_op hy

namespace Shared

def init : Shared where
  quota := RetryQuota.new
  held := []
  lastRetryCost := fun _ => none
  nextId := 0
  history := []

def setLast (s : Shared) (op : Nat) (cost : Option Nat) : Nat → Option Nat :=
  fun i => if i = op then cost else s.lastRetryCost i

/-- One atomic step.  The slot `pending_retry_permit` holds one permit, so an
operation asks for another only when the slot is empty, and it succeeds only
after the permit was taken from the slot and committed. -/
def step (s : Shared) : QuotaLabel → Option Shared
  | .acquire op classification =>
      match takeHeld op s.held with
      | some _ => none
      | none =>
          match s.quota.acquire classification with
          | none => some { s with history := .refused :: s.history }
          | some (permit, quota) =>
              some { s with
                quota := quota
                held := ⟨s.nextId, op, classification, permit⟩ :: s.held
                nextId := s.nextId + 1
                history := .acquired s.nextId :: s.history }
  | .commit op =>
      match takeHeld op s.held with
      | none => none
      | some (h, rest) =>
          let (cost, spent) := h.permit.commit
          some { s with
            quota := spent.drop s.quota
            held := rest
            lastRetryCost := s.setLast op (some cost)
            history := .committed h.id h.classification cost :: s.history }
  | .finish op =>
      match takeHeld op s.held with
      | none => some { s with lastRetryCost := s.setLast op none }
      | some (h, rest) =>
          some { s with
            quota := h.permit.drop s.quota
            held := rest
            lastRetryCost := s.setLast op none
            history := .refunded h.id :: s.history }
  | .succeed op =>
      match takeHeld op s.held with
      | some _ => none
      | none =>
          let quota := s.quota.replenishAfterSuccess (s.lastRetryCost op)
          some { s with
            quota := quota
            lastRetryCost := s.setLast op none
            history := .restored (quota.tokens - s.quota.tokens) :: s.history }

end Shared

/-! ## What the history adds up to -/

/-- Total cost of the permits still held. -/
def heldCost (hs : List Held) : Nat := (hs.map fun h => h.permit.cost).sum

/-- Total cost of the permits committed so far. -/
def committedCost : List QuotaEvent → Nat
  | [] => 0
  | .committed _ _ cost :: h => cost + committedCost h
  | _ :: h => committedCost h

/-- Total amount restored by successes. -/
def restoredBySuccess : List QuotaEvent → Nat
  | [] => 0
  | .restored amount :: h => amount + restoredBySuccess h
  | _ :: h => restoredBySuccess h

/-- Number of retries sent after an error of this classification. -/
def retriesSent (classification : RetryClassification) : List QuotaEvent → Nat
  | [] => 0
  | .committed _ c _ :: h =>
      (if c = classification then 1 else 0) + retriesSent classification h
  | _ :: h => retriesSent classification h

def acquiredCount (id : Nat) (h : List QuotaEvent) : Nat :=
  h.count (.acquired id)

/-- How often permit `id` was committed or refunded. -/
def settledCount (id : Nat) (h : List QuotaEvent) : Nat :=
  h.countP fun e =>
    match e with
    | .committed i _ _ => i == id
    | .refunded i => i == id
    | _ => false

def heldCount (id : Nat) (hs : List Held) : Nat := hs.countP fun h => h.id == id

/-- No operation has succeeded. -/
def NoSuccess (h : List QuotaEvent) : Prop := ∀ amount, .restored amount ∉ h

/-! ## The invariant -/

/-- The balance of the quota and the accounts of the single permits. -/
structure Balanced (s : Shared) : Prop where
  tokens_le : s.quota.tokens ≤ 500
  held_ok : ∀ h ∈ s.held, h.permit.committed = false ∧
    retryCost h.classification = some h.permit.cost
  last_ok : ∀ op, (s.lastRetryCost op).getD 1 ≤ 14
  sum_le : s.quota.tokens + heldCost s.held + committedCost s.history
    ≤ 500 + restoredBySuccess s.history
  sum_eq : NoSuccess s.history →
    s.quota.tokens + heldCost s.held + committedCost s.history = 500
  retries :
    5 * retriesSent .throttled s.history + 14 * retriesSent .retryable s.history
    = committedCost s.history
  account : ∀ id, acquiredCount id s.history =
    heldCount id s.held + settledCount id s.history
  once : ∀ id, acquiredCount id s.history ≤ 1
  fresh : ∀ id, s.nextId ≤ id → acquiredCount id s.history = 0
  slots : (s.held.map Held.op).Nodup

theorem heldCost_perm {hs hs' : List Held} (h : hs.Perm hs') :
    heldCost hs = heldCost hs' :=
  (h.map _).sum_eq

theorem heldCount_perm {hs hs' : List Held} (h : hs.Perm hs') (id : Nat) :
    heldCount id hs = heldCount id hs' :=
  h.countP_eq _

theorem noSuccess_of_cons {e : QuotaEvent} {h : List QuotaEvent}
    (hn : NoSuccess (e :: h)) :
    NoSuccess h :=
  fun amount hm => hn amount (List.mem_cons_of_mem _ hm)

theorem getD_setLast_le {s : Shared}
    (hs : ∀ op, (s.lastRetryCost op).getD 1 ≤ 14) (op : Nat) {cost : Option Nat}
    (hc : cost.getD 1 ≤ 14) : ∀ i, (s.setLast op cost i).getD 1 ≤ 14 := by
  intro i
  unfold Shared.setLast
  split
  · exact hc
  · exact hs i

theorem balanced_init : Balanced Shared.init where
  tokens_le := by decide
  held_ok := by simp [Shared.init]
  last_ok := by simp [Shared.init]
  sum_le := by decide
  sum_eq := fun _ => by decide
  retries := by decide
  account := by simp [Shared.init, acquiredCount, heldCount, settledCount]
  once := by simp [Shared.init, acquiredCount]
  fresh := by simp [Shared.init, acquiredCount]
  slots := by simp [Shared.init]

theorem Shared.step_cases {s s' : Shared} {l : QuotaLabel}
    (h : s.step l = some s') :
    (s' = { s with history := .refused :: s.history }) ∨
    (∃ op c p q, s.quota.acquire c = some (p, q) ∧ op ∉ s.held.map Held.op ∧
      s' = { s with
        quota := q
        held := ⟨s.nextId, op, c, p⟩ :: s.held
        nextId := s.nextId + 1
        history := .acquired s.nextId :: s.history }) ∨
    (∃ op x rest, s.held.Perm (x :: rest) ∧
      s' = { s with
        held := rest
        lastRetryCost := s.setLast op (some x.permit.cost)
        history :=
          .committed x.id x.classification x.permit.cost :: s.history }) ∨
    (∃ op, s' = { s with lastRetryCost := s.setLast op none }) ∨
    (∃ op x rest, s.held.Perm (x :: rest) ∧
      s' = { s with
        quota := x.permit.drop s.quota
        held := rest
        lastRetryCost := s.setLast op none
        history := .refunded x.id :: s.history }) ∨
    (∃ op, s' = { s with
        quota := s.quota.replenishAfterSuccess (s.lastRetryCost op)
        lastRetryCost := s.setLast op none
        history :=
          .restored ((s.quota.replenishAfterSuccess (s.lastRetryCost op)).tokens
          - s.quota.tokens) :: s.history }) := by
  cases l with
  | acquire op c =>
      simp only [step] at h
      split at h
      next => cases h
      next hslot =>
          split at h
          next => exact Or.inl (Option.some.inj h).symm
          next p q hq =>
              exact Or.inr (Or.inl
                ⟨op, c, p, q, hq, takeHeld_none hslot,
                  (Option.some.inj h).symm⟩)
  | commit op =>
      simp only [step] at h
      split at h
      next => cases h
      next x rest hx =>
          exact Or.inr (Or.inr (Or.inl
            ⟨op, x, rest, takeHeld_perm hx, (Option.some.inj h).symm⟩))
  | finish op =>
      simp only [step] at h
      split at h
      next => exact Or.inr (Or.inr (Or.inr (Or.inl ⟨op, (Option.some.inj h).symm⟩)))
      next x rest hx =>
          exact Or.inr (Or.inr (Or.inr (Or.inr (Or.inl
            ⟨op, x, rest, takeHeld_perm hx, (Option.some.inj h).symm⟩))))
  | succeed op =>
      simp only [step] at h
      split at h
      next => cases h
      next =>
        exact Or.inr (Or.inr (Or.inr (Or.inr
          (Or.inr ⟨op, (Option.some.inj h).symm⟩))))

section Settle

variable {s : Shared} {x : Held} {rest : List Held}

/-- The permit that leaves the held list was an uncommitted one of cost 5 or 14,
and it was counted once on each side of its account. -/
theorem Balanced.leaving (hb : Balanced s) (hp : s.held.Perm (x :: rest)) :
    x.permit.committed = false ∧
    retryCost x.classification = some x.permit.cost ∧
      x.permit.cost ≤ 14 ∧ heldCost s.held = x.permit.cost + heldCost rest := by
  obtain ⟨hc, hr⟩ := hb.held_ok x (hp.symm.subset (List.mem_cons_self ..))
  have hle : x.permit.cost ≤ 14 := by
    rcases retryCost_some hr with ⟨-, h⟩ | ⟨-, h⟩ <;> omega
  exact ⟨hc, hr, hle, by rw [heldCost_perm hp]; simp [heldCost]⟩

/-- Settling a held permit moves it from the held list to the settled events,
and changes no account. -/
theorem Balanced.account_settle (hb : Balanced s) (hp : s.held.Perm (x :: rest))
    {e : QuotaEvent}
    (hacq : ∀ id, acquiredCount id (e :: s.history) =
      acquiredCount id s.history)
    (hset : ∀ id, settledCount id (e :: s.history) =
      settledCount id s.history + if x.id = id then 1 else 0) (id : Nat) :
    acquiredCount id (e :: s.history) =
      heldCount id rest + settledCount id (e :: s.history) := by
  have hacc := hb.account id
  rw [heldCount_perm hp id] at hacc
  have hcons : heldCount id (x :: rest) = heldCount id rest + if x.id = id then
      1 else 0 := by
    simp [heldCount, List.countP_cons]
  rw [hacq, hset, hacc, hcons]
  omega

theorem Balanced.slots_rest (hb : Balanced s) (hp : s.held.Perm (x :: rest)) :
    (rest.map Held.op).Nodup := by
  have h := (hp.map Held.op).nodup_iff.mp hb.slots
  rw [List.map_cons, List.nodup_cons] at h
  exact h.2

end Settle

/-- One step keeps the balance.  Only the two clamps lose tokens, and before the
first success the refund clamp is not reached, because the refunded permit is
itself part of the 500. -/
theorem balanced_step {s s' : Shared} {l : QuotaLabel} (h : s.step l = some s')
    (hb : Balanced s) : Balanced s' := by
  rcases Shared.step_cases h with rfl | ⟨op, c, p, q, hq, hslot, rfl⟩ |
    ⟨op, x, rest, hp, rfl⟩ | ⟨op, rfl⟩ | ⟨op, x, rest, hp, rfl⟩ | ⟨op, rfl⟩
  · -- refused
    refine ⟨hb.tokens_le, hb.held_ok, hb.last_ok, hb.sum_le,
      fun hn => hb.sum_eq (noSuccess_of_cons hn), hb.retries, ?_, ?_, ?_,
        hb.slots⟩
    · simpa [acquiredCount, settledCount] using hb.account
    · simpa [acquiredCount] using hb.once
    · simpa [acquiredCount] using hb.fresh
  · -- acquired
    obtain ⟨hcost, hunc, htok⟩ := RetryQuota.acquire_some hq
    have htl := hb.tokens_le
    have hsum := hb.sum_le
    refine ⟨by simp only; omega, ?_, hb.last_ok, ?_, ?_, hb.retries, ?_, ?_, ?_,
      by simpa using ⟨by simpa using hslot, hb.slots⟩⟩
    · intro y hy
      rcases List.mem_cons.mp hy with rfl | hy
      · exact ⟨hunc, hcost⟩
      · exact hb.held_ok y hy
    · simp only [heldCost, List.map_cons, List.sum_cons, committedCost,
        restoredBySuccess] at hsum ⊢
      omega
    · intro hn
      have heq := hb.sum_eq (noSuccess_of_cons hn)
      simp only [heldCost, List.map_cons, List.sum_cons, committedCost] at heq ⊢
      omega
    · intro id
      have hacc := hb.account id
      simp only [acquiredCount, heldCount, settledCount, List.count_cons,
        List.countP_cons] at hacc ⊢
      by_cases hid : s.nextId = id <;> simp [hid] <;> omega
    · intro id
      have hone := hb.once id
      by_cases hid : s.nextId = id
      · have hz := hb.fresh id (by omega)
        simp only [acquiredCount, List.count_cons] at hz ⊢
        simp [hz, hid]
      · simpa [acquiredCount, List.count_cons, hid] using hone
    · intro id hid
      have hz := hb.fresh id (by simp only at hid; omega)
      simp only at hid
      have hne : ¬ s.nextId = id := by omega
      simpa [acquiredCount, List.count_cons, hne] using hz
  · -- committed
    obtain ⟨-, hcost, hle, hheld⟩ := hb.leaving hp
    have hsum := hb.sum_le
    refine ⟨hb.tokens_le, ?_, getD_setLast_le hb.last_ok op hle, ?_, ?_, ?_,
      hb.account_settle hp (by simp [acquiredCount])
        (by simp [settledCount, List.countP_cons]),
      by simpa [acquiredCount] using hb.once, by simpa [acquiredCount] using hb.fresh,
      hb.slots_rest hp⟩
    · exact fun y hy =>
        hb.held_ok y (hp.symm.subset (List.mem_cons_of_mem _ hy))
    · simp only [committedCost, restoredBySuccess]
      omega
    · intro hn
      have heq := hb.sum_eq (noSuccess_of_cons hn)
      simp only [committedCost]
      omega
    · have hr := hb.retries
      rcases retryCost_some hcost with ⟨hc, hn⟩ | ⟨hc, hn⟩ <;>
        simp only [retriesSent, committedCost, hc] <;> simp <;> omega
  · -- an operation ended without a permit
    exact ⟨hb.tokens_le, hb.held_ok, getD_setLast_le hb.last_ok op (by simp),
      hb.sum_le, hb.sum_eq,
      hb.retries, hb.account, hb.once, hb.fresh, hb.slots⟩
  · -- refunded
    obtain ⟨hunc, -, hle, hheld⟩ := hb.leaving hp
    have htl := hb.tokens_le
    have hsum := hb.sum_le
    have hq :
        (x.permit.drop s.quota).tokens =
            min (s.quota.tokens + x.permit.cost) 500 := by
      simp only [RetryPermit.drop, hunc, Bool.false_eq_true, if_false]
      exact RetryQuota.replenish_tokens htl (some x.permit.cost) hle
    refine ⟨by simp only [hq]; omega, ?_,
      getD_setLast_le hb.last_ok op (by simp), ?_, ?_,
      hb.retries,
      hb.account_settle hp (by simp [acquiredCount])
        (by simp [settledCount, List.countP_cons]),
      by simpa [acquiredCount] using hb.once, by simpa [acquiredCount] using hb.fresh,
      hb.slots_rest hp⟩
    · exact fun y hy =>
        hb.held_ok y (hp.symm.subset (List.mem_cons_of_mem _ hy))
    · simp only [hq, committedCost, restoredBySuccess]
      omega
    · intro hn
      have heq := hb.sum_eq (noSuccess_of_cons hn)
      simp only [hq, committedCost]
      omega
  · -- succeeded
    have htl := hb.tokens_le
    have hsum := hb.sum_le
    have hq :=
      RetryQuota.replenish_tokens htl (s.lastRetryCost op) (hb.last_ok op)
    refine ⟨by simp only [hq]; omega, hb.held_ok,
      getD_setLast_le hb.last_ok op (by simp), ?_, ?_,
      hb.retries, ?_, by simpa [acquiredCount] using hb.once,
      by simpa [acquiredCount] using hb.fresh, hb.slots⟩
    · simp only [committedCost, restoredBySuccess, hq]
      omega
    · intro hn
      exact absurd (List.mem_cons_self ..) (hn _)
    · simpa [acquiredCount, settledCount] using hb.account

theorem Balanced.ended {s s' : Shared} (hb : Balanced s) {op : Nat}
    (h : s.step (.finish op) = some s' ∨ s.step (.succeed op) = some s') :
    op ∉ s'.held.map Held.op := by
  rcases h with h | h
  · simp only [Shared.step] at h
    split at h
    next hn =>
        cases h
        exact takeHeld_none hn
    next x rest hx =>
        cases h
        have hnd := ((takeHeld_perm hx).map Held.op).nodup_iff.mp hb.slots
        rw [List.map_cons, List.nodup_cons, takeHeld_op hx] at hnd
        exact hnd.1
  · simp only [Shared.step] at h
    split at h
    next => cases h
    next hn =>
        cases h
        exact takeHeld_none hn

/-! ## The law of the shared quota -/

/-- **Every interleaving of operations over one quota.**  The counter stays
within its capacity and neither of its two updates wraps; a permit is held,
committed once or refunded once, and an operation that has ended holds none; the
spent tokens are bounded by the capacity and what successes gave back, and
exactly accounted for while there was no success. -/
theorem retryQuota_conserved {ls : List QuotaLabel} {s : Shared}
    (h : Lib.exec Shared.step Shared.init ls = some s) :
    s.quota.tokens ≤ 500 ∧
    (∀ c p q, s.quota.acquire c = some (p, q) →
      q.tokens + p.cost = s.quota.tokens) ∧
    (∀ op, s.quota.tokens + (s.lastRetryCost op).getD 1 < 2 ^ 32) ∧
    (∀ x ∈ s.held, s.quota.tokens + x.permit.cost < 2 ^ 32) ∧
    (∀ id, .acquired id ∈ s.history →
      heldCount id s.held + settledCount id s.history = 1) ∧
    (∀ op s', s.step (.finish op) = some s' ∨ s.step (.succeed op) = some s' →
      op ∉ s'.held.map Held.op) ∧
    (NoSuccess s.history →
      s.quota.tokens + heldCost s.held + committedCost s.history = 500 ∧
      retriesSent .throttled s.history ≤ 500 / 5 ∧
      retriesSent .retryable s.history ≤ 500 / 14) ∧
    committedCost s.history ≤ 500 + restoredBySuccess s.history := by
  have hb : Balanced s := Lib.exec_invariant balanced_step h balanced_init
  have htl := hb.tokens_le
  refine ⟨htl, fun c p q hq => (RetryQuota.acquire_some hq).2.2, ?_, ?_, ?_,
    fun op s' hs => hb.ended hs, ?_, ?_⟩
  · intro op
    have := hb.last_ok op
    omega
  · intro x hx
    rcases retryCost_some (hb.held_ok x hx).2 with ⟨-, hc⟩ | ⟨-, hc⟩ <;> omega
  · intro id hid
    have hpos : 0 < acquiredCount id s.history := List.count_pos_iff.mpr hid
    have hone := hb.once id
    have hacc := hb.account id
    omega
  · intro hn
    have heq := hb.sum_eq hn
    have hr := hb.retries
    exact ⟨heq, by omega, by omega⟩
  · have := hb.sum_le
    omega

/-- A throttled retry that is sent, a transient one that is given up, and the
success of the first operation. -/
theorem retryQuota_conserved_two_operations :
    ∃ s, Lib.exec Shared.step Shared.init
        [.acquire 0 .throttled, .acquire 1 .retryable, .commit 0, .finish 1,
          .succeed 0] = some s ∧
      s.quota.tokens ≤ 500 ∧
      committedCost s.history ≤ 500 + restoredBySuccess s.history := by
  obtain ⟨s, hs⟩ : ∃ s, Lib.exec Shared.step Shared.init
      [.acquire 0 .throttled, .acquire 1 .retryable, .commit 0, .finish 1,
          .succeed 0] = some s :=
    ⟨_, rfl⟩
  have hlaw := retryQuota_conserved hs
  exact ⟨s, hs, hlaw.1, hlaw.2.2.2.2.2.2.2⟩

end S3Wire
