/-
# `S3Wire.Stream.Verified` — a download ends cleanly only with the declared bytes

What a `ResponseStream` makes of a body, for every way the body is cut into
chunks, every pattern of polls and every reading of the clock.

`Sound` is the specification: the body ended, its bytes are those that were
declared, and they can be counted in 64 bits.  `StreamInv` ties every state of
the stream to it: the stream is still passing on what it takes, or it has ended
on a sound body, or it has yielded its one error.  One poll keeps the invariant
(`pollNext_inv`), so every run does (`polls_inv`), and `writeTo` is such a run
that collects what is yielded (`writeTo_ok`).
-/
import S3Wire.Stream.Download

namespace S3Wire

/-! ## What a body is worth -/

/-- Data or waiting. -/
def DownloadEvent.flows : DownloadEvent → Bool
  | .chunk _ => true
  | .pending => true
  | .error _ => false
  | .ended => false

/-- The bytes of a body: its chunks up to its end or its first error. -/
def bodyBytes : List DownloadEvent → Bytes
  | [] => []
  | .chunk bytes :: rest => bytes ++ bodyBytes rest
  | .pending :: rest => bodyBytes rest
  | .error _ :: _ => []
  | .ended :: _ => []

section Body

variable (sha : Sha256) (length : Option UInt64) (digest : Option Bytes)

/-- These are the declared bytes, as far as anything was declared. -/
def Declared (body : Bytes) : Prop :=
  (∀ n ∈ length, body.length = n.toNat) ∧ ∀ expected ∈ digest,
    sha.digest body = expected

/-- The body ended normally: nothing but data and waiting came before its
end. -/
def EndsNormally (events : List DownloadEvent) : Prop :=
  ∃ flow rest, events = flow ++ .ended :: rest ∧ ∀ e ∈ flow, e.flows = true

/-- The body ended normally, with the declared bytes; how they were cut does not
matter. -/
def Verified (events : List DownloadEvent) : Prop :=
  EndsNormally events ∧ Declared sha length digest (bodyBytes events)

/-- Verified, and small enough to be counted. -/
def Sound (events : List DownloadEvent) : Prop :=
  Verified sha length digest events ∧ (bodyBytes events).length < 2 ^ 64

variable {sha length digest}

theorem bodyBytes_append :
    ∀ {flow : List DownloadEvent} (rest : List DownloadEvent),
    (∀ e ∈ flow, e.flows = true) →
    bodyBytes (flow ++ rest) = bodyBytes flow ++ bodyBytes rest
  | [], _, _ => rfl
  | .chunk bytes :: flow, rest, h => by
      rw [List.cons_append, bodyBytes, bodyBytes,
        bodyBytes_append rest fun e he => h e (List.mem_cons_of_mem _ he),
          List.append_assoc]
  | .pending :: flow, rest, h =>
      @bodyBytes_append flow rest fun e he => h e (List.mem_cons_of_mem _ he)
  | .error _ :: _, _, h =>
      absurd (h _ (List.mem_cons_self ..)) Bool.false_ne_true
  | .ended :: _, _, h => absurd (h _ (List.mem_cons_self ..)) Bool.false_ne_true

theorem bodyBytes_ended {flow : List DownloadEvent} (rest : List DownloadEvent)
    (h : ∀ e ∈ flow, e.flows = true) :
    bodyBytes (flow ++ .ended :: rest) = bodyBytes flow := by
  rw [bodyBytes_append _ h, bodyBytes, List.append_nil]

theorem not_endsNormally_of_flows {events : List DownloadEvent}
    (hflow : ∀ e ∈ events, e.flows = true) : ¬ EndsNormally events := by
  rintro ⟨flow, rest, rfl, -⟩
  exact Bool.false_ne_true (hflow .ended (by simp))

theorem not_endsNormally_of_error {flow rest : List DownloadEvent} {e : S3Error}
    (hflow : ∀ e ∈ flow, e.flows = true) :
    ¬ EndsNormally (flow ++ .error e :: rest) := by
  rintro ⟨flow', rest', heq, hflow'⟩
  rcases List.append_eq_append_iff.mp heq with ⟨l, rfl, htail⟩ | ⟨l, rfl, htail⟩
  · cases l with
    | nil => cases htail
    | cons x l =>
        obtain ⟨rfl, -⟩ := List.cons.inj htail
        exact Bool.false_ne_true (hflow' (.error e) (by simp))
  · cases l with
    | nil => cases htail
    | cons x l =>
        obtain ⟨rfl, -⟩ := List.cons.inj htail
        exact Bool.false_ne_true (hflow .ended (by simp))

/-- A body that has run over its length is not verified, whatever follows. -/
theorem not_verified_of_overrun {flow rest : List DownloadEvent} {n : UInt64}
    (hflow : ∀ e ∈ flow, e.flows = true) (hn : n ∈ length)
    (hover : n.toNat < (bodyBytes flow).length) :
    ¬ Verified sha length digest (flow ++ rest) := by
  intro hverified
  have hlen := hverified.2.1 n hn
  rw [bodyBytes_append rest hflow, List.length_append] at hlen
  omega

end Body

/-! ## The invariant of the stream -/

section Stream

open ResponseStream

variable {sha : Sha256} {length : Option UInt64} {digest : Option Bytes}
  {events : List DownloadEvent} {outs : List Polled} {b : ResponseStream}

/-- Every state of a stream after the answers `outs`.  `timely` is what is known
about the timers: under it no error of the stream is theirs. -/
inductive StreamInv (sha : Sha256) (length : Option UInt64)
    (digest : Option Bytes) (events : List DownloadEvent) (timely : Prop)
    (outs : List Polled) (b : ResponseStream) : Prop
  | streaming (taken : List DownloadEvent) (hopen : b.finished = false)
      (hlength : b.expectedLength = length)
      (hdigest : b.expectedSha256 = digest)
      (htaken : events = taken ++ b.inner) (hflow : ∀ e ∈ taken, e.flows = true)
      (hcount : outs.length ≤ taken.length ∨ b.inner = [])
      (hreceived : b.received = (bodyBytes taken).length)
      (hroom : b.received < 2 ^ 64)
      (hwithin : ∀ n ∈ length, b.received ≤ n.toNat)
      (hhashed : b.sha256 = digest.map fun _ => bodyBytes taken)
      (hyield : yielded outs = bodyBytes taken) (hrunning : Running outs)
  | ended (hfinished : b.finished = true)
      (hsound : Sound sha length digest events)
      (hyield : yielded outs = bodyBytes events) (herrors : errors outs = 0)
      (hend : .ready none ∈ outs)
  | failed (hfinished : b.finished = true)
      (hcause : timely → ¬ Sound sha length digest events)
      (hyield : yielded outs <+: bodyBytes events)
      (hwithin : ∀ n ∈ length, (yielded outs).length ≤ n.toNat)
      (herrors : errors outs = 1)

theorem StreamInv.weaken {timely timely' : Prop} (ht : timely' → timely)
    (h : StreamInv sha length digest events timely outs b) :
    StreamInv sha length digest events timely' outs b := by
  cases h with
  | streaming taken hopen hlength hdigest htaken hflow hcount hreceived hroom
      hwithin hhashed hyield
      hrunning =>
      exact .streaming taken hopen hlength hdigest htaken hflow hcount hreceived
        hroom hwithin hhashed
        hyield hrunning
  | ended hfinished hsound hyield herrors hend =>
      exact .ended hfinished hsound hyield herrors hend
  | failed hfinished hcause hyield hwithin herrors =>
      exact .failed hfinished (fun h => hcause (ht h)) hyield hwithin herrors

theorem errors_cons {out : Polled} (h : out.isError = false) :
    errors (out :: outs) = errors outs := by
  rw [errors, errors, List.countP_cons_of_neg]
  rw [h]
  exact Bool.false_ne_true

theorem StreamInv.fail {timely : Prop} {taken : List DownloadEvent}
    {e : S3Error} {b' : ResponseStream} (hfinished : b'.finished = true)
    (hcause : timely → ¬ Sound sha length digest events)
    (hyield : yielded outs = bodyBytes taken)
    (hleading : bodyBytes taken <+: bodyBytes events)
    (hwithin : ∀ n ∈ length, (bodyBytes taken).length ≤ n.toNat)
    (hrunning : Running outs) :
    StreamInv sha length digest events timely
      (.ready (some (.error e)) :: outs) b' := by
  have hsame :
      yielded (.ready (some (.error e)) :: outs) = bodyBytes taken := by
    rw [yielded, hyield]
    simp [Polled.data]
  refine .failed hfinished hcause ?_ ?_ ?_
  · rw [hsame]
    exact hleading
  · rw [hsame]
    exact hwithin
  · rw [errors, List.countP_cons_of_pos rfl]
    have hnone := errors_of_running hrunning
    rw [errors] at hnone
    omega

theorem takeChunk_stream_inv {timely : Prop} {taken rest : List DownloadEvent}
    {chunk : Bytes} {now : Instant} (hopen : b.finished = false)
    (hlength : b.expectedLength = length) (hdigest : b.expectedSha256 = digest)
    (hinner : b.inner = rest) (htaken : events = taken ++ .chunk chunk :: rest)
    (hflow : ∀ e ∈ taken, e.flows = true) (hcount : outs.length ≤ taken.length)
    (hreceived : b.received = (bodyBytes taken).length)
    (hroom : b.received < 2 ^ 64) (hwithin : ∀ n ∈ length, b.received ≤ n.toNat)
    (hhashed : b.sha256 = digest.map fun _ => bodyBytes taken)
    (hyield : yielded outs = bodyBytes taken) (hrunning : Running outs) :
    StreamInv sha length digest events timely
      ((b.takeChunk now chunk).1 :: outs)
      (b.takeChunk now chunk).2 := by
  have hflow' : ∀ e ∈ taken ++ [.chunk chunk], e.flows = true := by
    intro e he
    rcases List.mem_append.mp he with he | he
    · exact hflow e he
    · rw [List.mem_singleton.mp he]
      rfl
  have htaken' : events = (taken ++ [.chunk chunk]) ++ rest := by
    rw [htaken, List.append_assoc]
    rfl
  have hbytes :
      bodyBytes (taken ++ [.chunk chunk]) = bodyBytes taken ++ chunk := by
    rw [bodyBytes_append _ hflow]
    simp [bodyBytes]
  have hall :
      bodyBytes events = bodyBytes taken ++ (chunk ++ bodyBytes rest) := by
    rw [htaken, bodyBytes_append _ hflow, bodyBytes]
  have hleading : bodyBytes taken <+: bodyBytes events := ⟨_, hall.symm⟩
  have hcount' :
      outs.length + 1 ≤ (taken ++ [DownloadEvent.chunk chunk]).length := by
    rw [List.length_append, List.length_singleton]
    omega
  -- a body too long to be counted is not sound
  have hlong : ∀ {m : Nat}, m ≤ b.received + chunk.length → 2 ^ 64 ≤ m →
      ¬ Sound sha length digest events := by
    intro m hm hbig hsound
    have hsmall := hsound.2
    rw [hall, List.length_append, List.length_append] at hsmall
    omega
  rw [takeChunk]
  by_cases hempty : chunk.isEmpty = true
  · rw [if_pos hempty]
    obtain rfl : chunk = [] := List.isEmpty_iff.mp hempty
    rw [List.append_nil] at hbytes
    refine .streaming (taken ++ [.chunk []]) hopen hlength hdigest
      (hinner ▸ htaken') hflow'
      (Or.inl hcount') (hbytes ▸ hreceived) hroom hwithin (hbytes ▸ hhashed) ?_
      (running_cons hrunning rfl rfl)
    rw [hbytes, yielded, hyield]
    simp [Polled.data]
  · rw [if_neg hempty]
    have hwithin' : ∀ n ∈ length, (bodyBytes taken).length ≤ n.toNat := by
      rw [← hreceived]
      exact hwithin
    by_cases hhuge : 2 ^ 64 ≤ chunk.length
    · rw [if_pos hhuge]
      exact .fail rfl
        (fun _ => hlong (Nat.le_add_left _ _) hhuge) hyield hleading hwithin'
          hrunning
    · rw [if_neg hhuge]
      by_cases hoverflow : 2 ^ 64 ≤ b.received + chunk.length
      · rw [if_pos hoverflow]
        exact .fail rfl
          (fun _ => hlong le_rfl hoverflow) hyield hleading hwithin' hrunning
      · rw [if_neg hoverflow]
        have hreceived' :
            b.received + chunk.length =
                (bodyBytes (taken ++ [.chunk chunk])).length := by
          rw [hbytes, List.length_append, hreceived]
        by_cases hover :
          b.expectedLength.any
            (fun expected => expected.toNat < b.received + chunk.length) = true
        · rw [if_pos hover]
          rw [hlength, Option.any_eq_true] at hover
          obtain ⟨n, hn, hlt⟩ := hover
          rw [decide_eq_true_eq, hreceived'] at hlt
          refine .fail rfl
            (fun _ hsound => ?_) hyield hleading hwithin' hrunning
          exact not_verified_of_overrun hflow' hn hlt (htaken' ▸ hsound.1)
        · rw [if_neg hover]
          refine .streaming (taken ++ [.chunk chunk]) hopen hlength hdigest
            (hinner ▸ htaken') hflow'
            (Or.inl hcount') hreceived' (by simpa using hoverflow) ?_ ?_ ?_
              (running_cons hrunning rfl rfl)
          · intro n hn
            rw [hlength, Option.any_eq_true, not_exists] at hover
            have := hover n
            simp only [not_and, decide_eq_true_eq, Nat.not_lt] at this
            exact this hn
          · show b.sha256.map _ = _
            rw [hhashed, hbytes]
            cases digest <;> rfl
          · rw [hbytes, yielded, hyield]
            rfl

theorem takeEnd_inv {timely : Prop} {taken rest : List DownloadEvent}
    (hlength : b.expectedLength = length) (hdigest : b.expectedSha256 = digest)
    (htaken : events = taken ++ .ended :: rest)
    (hflow : ∀ e ∈ taken, e.flows = true)
    (hreceived : b.received = (bodyBytes taken).length)
    (hroom : b.received < 2 ^ 64) (hwithin : ∀ n ∈ length, b.received ≤ n.toNat)
    (hhashed : b.sha256 = digest.map fun _ => bodyBytes taken)
    (hyield : yielded outs = bodyBytes taken) (hrunning : Running outs) :
    StreamInv sha length digest events timely ((b.takeEnd sha).1 :: outs)
      (b.takeEnd sha).2 := by
  have hall : bodyBytes events = bodyBytes taken := by
    rw [htaken, bodyBytes_ended rest hflow]
  have hsmall : (bodyBytes events).length < 2 ^ 64 := by
    rw [hall, ← hreceived]
    exact hroom
  have hwithin' : ∀ n ∈ length, (bodyBytes taken).length ≤ n.toNat := by
    rw [← hreceived]
    exact hwithin
  have hleading : bodyBytes taken <+: bodyBytes events := by rw [hall]
  have hnormal : EndsNormally events := ⟨taken, rest, htaken, hflow⟩
  have hfail : ∀ {e : S3Error} {b' : ResponseStream}, b'.finished = true →
      ¬ Declared sha length digest (bodyBytes taken) →
      StreamInv sha length digest events timely
          (.ready (some (.error e)) :: outs) b' := by
    intro e b' hfinished hno
    exact .fail hfinished
      (fun _ hsound => hno (hall ▸ hsound.1.2)) hyield hleading hwithin'
        hrunning
  have hdone : ∀ {b' : ResponseStream}, b'.finished = true →
      Declared sha length digest (bodyBytes taken) →
      StreamInv sha length digest events timely (.ready none :: outs) b' := by
    intro b' hfinished hdeclared
    refine .ended hfinished ⟨⟨hnormal, hall ▸ hdeclared⟩, hsmall⟩ ?_ ?_
      (List.mem_cons_self ..)
    · rw [yielded, hyield, hall]
      simp [Polled.data]
    · rw [errors_cons rfl]
      exact errors_of_running hrunning
  rw [takeEnd]
  by_cases hwrong :
    b.expectedLength.any (fun expected => expected.toNat ≠ b.received) = true
  · rw [if_pos hwrong]
    rw [hlength, Option.any_eq_true] at hwrong
    obtain ⟨n, hn, hne⟩ := hwrong
    refine hfail rfl fun hdeclared => ?_
    have := hdeclared.1 n hn
    rw [decide_eq_true_eq, hreceived] at hne
    exact hne this.symm
  · rw [if_neg hwrong]
    have hlen : ∀ n ∈ length, (bodyBytes taken).length = n.toNat := by
      intro n hn
      rw [hlength, Option.any_eq_true, not_exists] at hwrong
      have := hwrong n
      simp only [not_and, decide_eq_true_eq, ne_eq, Decidable.not_not] at this
      rw [this hn, hreceived]
    cases hexpected : b.expectedSha256 with
    | none =>
        rw [hexpected] at hdigest
        subst hdigest
        refine hdone rfl ⟨hlen, ?_⟩
        intro e he
        cases he
    | some expected =>
        rw [hexpected] at hdigest
        subst hdigest
        simp only [hhashed, Option.map_some, Option.getD_some]
        by_cases hsame : sha.digest (bodyBytes taken) = expected
        · rw [if_pos hsame]
          refine hdone rfl ⟨hlen, fun e he => ?_⟩
          rw [← Option.mem_some_iff.mp he]
          exact hsame
        · rw [if_neg hsame]
          exact hfail rfl fun hdeclared => hsame (hdeclared.2 expected rfl)

theorem pollInner_inv {timely : Prop} {now : Instant}
    (hopen : b.finished = false)
    (h : StreamInv sha length digest events timely outs b) :
    StreamInv sha length digest events timely ((b.pollInner sha now).1 :: outs)
      (b.pollInner sha now).2 := by
  cases h with
  | ended hfinished => rw [hopen] at hfinished; cases hfinished
  | failed hfinished => rw [hopen] at hfinished; cases hfinished
  | streaming taken hopen hlength hdigest htaken hflow hcount hreceived hroom
      hwithin hhashed hyield
      hrunning =>
      have hwaiting : yielded (.pending :: outs) = yielded outs := by
        simp [yielded, Polled.data]
      rw [pollInner]
      cases hinner : b.inner with
      | nil =>
          -- silence: the state is as it was
          exact .streaming taken hopen hlength hdigest htaken hflow
            (Or.inr hinner) hreceived hroom
            hwithin hhashed (hwaiting.trans hyield)
              (running_cons hrunning rfl rfl)
      | cons event rest =>
          have hcount' : outs.length ≤ taken.length := by
            refine hcount.resolve_right fun hnil => ?_
            rw [hinner] at hnil
            cases hnil
          rw [hinner] at htaken
          cases event with
          | chunk bytes =>
              exact takeChunk_stream_inv hopen hlength hdigest rfl htaken hflow
                hcount' hreceived hroom
                hwithin hhashed hyield hrunning
          | pending =>
              have hpending :
                  bodyBytes (taken ++ [.pending]) = bodyBytes taken := by
                rw [bodyBytes_append _ hflow]
                simp [bodyBytes]
              refine .streaming
                (taken ++ [.pending]) hopen hlength hdigest ?_ ?_ (Or.inl ?_)
                (hpending ▸ hreceived) hroom hwithin (hpending ▸ hhashed)
                (hpending ▸ hwaiting.trans hyield)
                  (running_cons hrunning rfl rfl)
              · rw [htaken, List.append_assoc]
                rfl
              · intro e he
                rcases List.mem_append.mp he with he | he
                · exact hflow e he
                · rw [List.mem_singleton.mp he]
                  rfl
              · rw [List.length_append, List.length_singleton, List.length_cons]
                omega
          | error e =>
              refine .fail rfl
                (fun _ hsound =>
                  not_endsNormally_of_error hflow
                    (htaken ▸ hsound.1.1)) hyield ?_ ?_
                hrunning
              · rw [htaken, bodyBytes_append _ hflow]
                exact List.prefix_append _ _
              · rw [← hreceived]
                exact hwithin
          | ended =>
              exact takeEnd_inv hlength hdigest htaken hflow hreceived hroom
                hwithin hhashed hyield hrunning

/-- A timer is due at this poll. -/
def ResponseStream.expired (b : ResponseStream) (clock : PollClock) : Bool :=
  b.deadline.any (fun due => due ≤ clock.deadline) || b.idle ≤ clock.idle

/-- No poll of an unfinished stream finds a timer due. -/
def Timely (sha : Sha256) : List PollClock → ResponseStream → Prop
  | [], _ => True
  | clock :: earlier, b =>
      Timely sha earlier b ∧
        ((polls sha earlier b).2.finished = false →
          (polls sha earlier b).2.expired clock = false)

theorem pollNext_finished {clock : PollClock} (h : b.finished = true) :
    b.pollNext sha clock = (.ready none, b) := by
  rw [pollNext, if_pos h]

theorem pollNext_open {clock : PollClock} (hopen : b.finished = false)
    (hexpired : b.expired clock = false) :
    b.pollNext sha clock = b.pollInner sha clock.now := by
  rw [expired, Bool.or_eq_false_iff] at hexpired
  obtain ⟨hdeadline, hidle⟩ := hexpired
  rw [pollNext, hopen, hdeadline, if_neg Bool.false_ne_true,
    if_neg Bool.false_ne_true,
    if_neg (of_decide_eq_false hidle)]

theorem pollNext_expired {clock : PollClock} (hopen : b.finished = false)
    (hexpired : b.expired clock = true) :
    ∃ e, b.pollNext sha clock = b.fail e := by
  rw [expired, Bool.or_eq_true] at hexpired
  rw [pollNext, hopen, if_neg Bool.false_ne_true]
  by_cases hdeadline :
    (b.deadline.any fun due => decide (due ≤ clock.deadline)) = true
  · exact ⟨_, if_pos hdeadline⟩
  · have hidle : b.idle ≤ clock.idle :=
      of_decide_eq_true (hexpired.resolve_left hdeadline)
    exact ⟨_, (if_neg hdeadline).trans (if_pos hidle)⟩

/-- **One poll keeps the invariant.** -/
theorem pollNext_inv {timely timely' : Prop} {clock : PollClock}
    (htimely : timely' → timely ∧
      (b.finished = false → b.expired clock = false))
    (h : StreamInv sha length digest events timely outs b) :
    StreamInv sha length digest events timely'
      ((b.pollNext sha clock).1 :: outs)
      (b.pollNext sha clock).2 := by
  have hold : StreamInv sha length digest events timely' outs b :=
    h.weaken fun ht => (htimely ht).1
  have hsilent : yielded (.ready none :: outs) = yielded outs := by
    simp [yielded, Polled.data]
  have herrors' : errors (.ready none :: outs) = errors outs := errors_cons rfl
  by_cases hfinished : b.finished = true
  · rw [pollNext_finished hfinished]
    cases hold with
    | streaming taken hopen => rw [hfinished] at hopen; cases hopen
    | ended _ hsound hyield herrors hend =>
        exact .ended hfinished hsound (hsilent.trans hyield)
          (herrors'.trans herrors)
          (List.mem_cons_of_mem _ hend)
    | failed _ hcause hyield hwithin herrors =>
        exact .failed hfinished hcause (hsilent ▸ hyield) (hsilent ▸ hwithin)
          (herrors'.trans herrors)
  · have hopen : b.finished = false := Bool.eq_false_iff.mpr hfinished
    cases hexpired : b.expired clock with
    | false =>
        rw [pollNext_open hopen hexpired]
        exact pollInner_inv hopen hold
    | true =>
        obtain ⟨e, he⟩ := @pollNext_expired sha _ _ hopen hexpired
        rw [he]
        -- with a timer due the run was not timely
        have hnot : timely' → ¬ Sound sha length digest events := by
          intro ht
          cases hexpired.symm.trans ((htimely ht).2 hopen)
        cases hold with
        | ended hfin => exact absurd hfin hfinished
        | failed hfin => exact absurd hfin hfinished
        | streaming taken hopen hlength hdigest htaken hflow hcount hreceived
            hroom hwithin hhashed hyield
            hrunning =>
            refine .fail rfl hnot hyield ?_ ?_ hrunning
            · rw [htaken, bodyBytes_append _ hflow]
              exact List.prefix_append _ _
            · rw [← hreceived]
              exact hwithin

/-- A stream before its first poll. -/
structure Fresh (length : Option UInt64) (digest : Option Bytes)
    (events : List DownloadEvent) (b : ResponseStream) : Prop where
  inner : b.inner = events
  expectedLength : b.expectedLength = length
  expectedSha256 : b.expectedSha256 = digest
  sha256 : b.sha256 = digest.map fun _ => []
  received : b.received = 0
  finished : b.finished = false

theorem fresh_withDeadline (idleTimeout : Duration) (deadline now : Instant) :
    Fresh length digest events
      (withDeadline events length digest idleTimeout deadline now) :=
  ⟨rfl, rfl, rfl, rfl, rfl, rfl⟩

theorem fresh_new (idleTimeout : Duration) (now : Instant) :
    Fresh length none events (new events length idleTimeout now) :=
  ⟨rfl, rfl, rfl, rfl, rfl, rfl⟩

theorem Fresh.inv {timely : Prop} (h : Fresh length digest events b) :
    StreamInv sha length digest events timely [] b := by
  refine .streaming [] h.finished h.expectedLength h.expectedSha256 h.inner.symm
    ?_ (Or.inl le_rfl)
    h.received ?_ ?_ h.sha256 rfl ?_
  · intro e he
    cases he
  · rw [h.received]
    exact Nat.two_pow_pos 64
  · intro n _
    rw [h.received]
    exact Nat.zero_le _
  · intro out hout
    cases hout

/-- **The invariant of every run.** -/
theorem polls_stream_inv (h : Fresh length digest events b) :
    ∀ clocks : List PollClock,
    StreamInv sha length digest events (Timely sha clocks b)
      (polls sha clocks b).1
      (polls sha clocks b).2
  | [] => h.inv
  | _ :: earlier => pollNext_inv (fun ht => ht) (polls_stream_inv h earlier)

theorem length_polls :
    ∀ clocks : List PollClock, (polls sha clocks b).1.length = clocks.length
  | [] => rfl
  | _ :: earlier => congrArg Nat.succ (length_polls earlier)

/-- After an error or the end there is only the end. -/
theorem polls_stream_closed (h : Fresh length digest events b) :
    ∀ clocks : List PollClock,
    Lib.Justified
      (fun out past => (∃ x ∈ past, x.isError = true ∨ x.isEnd = true) →
        out = .ready none)
      (polls sha clocks b).1
  | [] => trivial
  | clock :: earlier => by
      refine ⟨?_, polls_stream_closed h earlier⟩
      rintro ⟨x, hx, hlast⟩
      have hfinished : (polls sha earlier b).2.finished = true := by
        cases @polls_stream_inv sha _ _ _ _ h earlier with
        | ended hfinished => exact hfinished
        | failed hfinished => exact hfinished
        | streaming taken hopen hlength hdigest htaken hflow hcount hreceived
            hroom hwithin hhashed
            hyield hrunning =>
            exfalso
            rcases hlast with hlast | hlast
            · exact Bool.false_ne_true ((hrunning x hx).1.symm.trans hlast)
            · exact Bool.false_ne_true ((hrunning x hx).2.symm.trans hlast)
      exact congrArg Prod.fst (pollNext_finished hfinished)

/-- The timers are as they were, but for an idle timer wound again at `now`. -/
def SameTimers (b b' : ResponseStream) (now : Instant) : Prop :=
  b'.deadline = b.deadline ∧ b'.idleTimeout = b.idleTimeout ∧
    (b'.idle = b.idle ∨ b'.idle = now + b.idleTimeout)

theorem takeChunk_timers (b : ResponseStream) (now : Instant) (chunk : Bytes) :
    SameTimers b (b.takeChunk now chunk).2 now := by
  rw [takeChunk]
  split
  · exact ⟨rfl, rfl, Or.inl rfl⟩
  dsimp only
  split
  · exact ⟨rfl, rfl, Or.inr rfl⟩
  split
  · exact ⟨rfl, rfl, Or.inr rfl⟩
  split
  · exact ⟨rfl, rfl, Or.inr rfl⟩
  · exact ⟨rfl, rfl, Or.inr rfl⟩

theorem takeEnd_timers (b : ResponseStream) (now : Instant) :
    SameTimers b (b.takeEnd sha).2 now := by
  rw [takeEnd]
  split
  · exact ⟨rfl, rfl, Or.inl rfl⟩
  split
  · exact ⟨rfl, rfl, Or.inl rfl⟩
  dsimp only
  split
  · exact ⟨rfl, rfl, Or.inl rfl⟩
  · exact ⟨rfl, rfl, Or.inl rfl⟩

theorem pollNext_timers (b : ResponseStream) (clock : PollClock) :
    SameTimers b (b.pollNext sha clock).2 clock.now := by
  rw [pollNext]
  split
  · exact ⟨rfl, rfl, Or.inl rfl⟩
  split
  · exact ⟨rfl, rfl, Or.inl rfl⟩
  split
  · exact ⟨rfl, rfl, Or.inl rfl⟩
  rw [pollInner]
  split
  · exact ⟨rfl, rfl, Or.inl rfl⟩
  next event rest hinner =>
  cases event with
  | pending => exact ⟨rfl, rfl, Or.inl rfl⟩
  | error e => exact ⟨rfl, rfl, Or.inl rfl⟩
  | chunk bytes =>
      exact takeChunk_timers { b with inner := rest } clock.now bytes
  | ended => exact takeEnd_timers { b with inner := rest } clock.now

theorem timely_still (hdeadline : ∀ due ∈ b.deadline, 0 < due)
    (htimeout : b.idleTimeout = 1) (hidle : b.idle = 1) (k : Nat) :
    Timely sha (List.replicate k ⟨0, 0, 0⟩) b := by
  have htimers : ∀ k, (polls sha (List.replicate k ⟨0, 0, 0⟩) b).2.deadline =
      b.deadline ∧
      (polls sha (List.replicate k ⟨0, 0, 0⟩) b).2.idleTimeout = 1 ∧
      (polls sha (List.replicate k ⟨0, 0, 0⟩) b).2.idle = 1 := by
    intro k
    induction k with
    | zero => exact ⟨rfl, htimeout, hidle⟩
    | succ k ih =>
        obtain ⟨hd, ht, hi⟩ :=
          @pollNext_timers sha (polls sha (List.replicate k ⟨0, 0, 0⟩) b).2
            ⟨0, 0, 0⟩
        refine ⟨hd.trans ih.1, ht.trans ih.2.1, ?_⟩
        rcases hi with hi | hi
        · exact hi.trans ih.2.2
        · rw [ih.2.1] at hi
          exact hi
  have hdue : (b.deadline.any fun due => decide (due ≤ 0)) = false := by
    cases hb : b.deadline with
    | none => rfl
    | some due => exact decide_eq_false (Nat.not_le.mpr (hdeadline due hb))
  induction k with
  | zero => trivial
  | succ k ih =>
      refine ⟨ih, fun _ => ?_⟩
      rw [expired, (htimers k).1, (htimers k).2.2, hdue]
      rfl

/-! ## The contract of the stream -/

/-- What a stream over `events` has done after polls at `clocks`. -/
structure StreamContract (sha : Sha256) (length : Option UInt64)
    (digest : Option Bytes) (events : List DownloadEvent)
    (clocks : List PollClock) (b : ResponseStream) : Prop where
  inOrder : yielded (polls sha clocks b).1 <+: bodyBytes events
  within : ∀ n ∈ length, (yielded (polls sha clocks b).1).length ≤ n.toNat
  /-- A clean end is the end of a sound body, and all of it was passed on. -/
  ends : .ready none ∈ (polls sha clocks b).1 →
    errors (polls sha clocks b).1 = 0 →
    Sound sha length digest events ∧
      yielded (polls sha clocks b).1 = bodyBytes events
  /-- A sound body ends cleanly once it was polled often enough, unless a timer
  was due. -/
  clean : Sound sha length digest events → Timely sha clocks b →
    errors (polls sha clocks b).1 = 0 ∧
      (events.length < clocks.length → .ready none ∈ (polls sha clocks b).1)
  closed : ∀ later out earlier, (polls sha clocks b).1 =
    later ++ out :: earlier →
    out.isError = true ∨ out.isEnd = true → ∀ x ∈ later, x = .ready none

theorem streamContract (h : Fresh length digest events b)
    (clocks : List PollClock) :
    StreamContract sha length digest events clocks b := by
  have hclosed := @polls_stream_closed sha _ _ _ _ h clocks
  have hlen := @length_polls sha b clocks
  have hinv := @polls_stream_inv sha _ _ _ _ h clocks
  have hlater :
      ∀ later out earlier, (polls sha clocks b).1 = later ++ out :: earlier →
      out.isError = true ∨ out.isEnd = true → ∀ x ∈ later, x = .ready none := by
    intro later out earlier hsplit hlast x hx
    obtain ⟨l₁, l₂, rfl⟩ := List.append_of_mem hx
    rw [hsplit, List.append_assoc, List.cons_append] at hclosed
    exact hclosed.at_split ⟨out, by simp, hlast⟩
  cases hinv with
  | streaming taken hopen hlength hdigest htaken hflow hcount hreceived hroom
      hwithin hhashed hyield
      hrunning =>
      refine ⟨?_, ?_, ?_, ?_, hlater⟩
      · rw [hyield, htaken, bodyBytes_append _ hflow]
        exact List.prefix_append _ _
      · rw [hyield, ← hreceived]
        exact hwithin
      · intro hmem
        exact absurd (hrunning _ hmem).2 Bool.false_ne_true.symm
      · intro hsound _
        refine ⟨errors_of_running hrunning, fun hlt => ?_⟩
        exfalso
        rcases hcount with hcount | hnil
        · have := congrArg List.length htaken
          rw [List.length_append] at this
          omega
        · rw [hnil, List.append_nil] at htaken
          exact not_endsNormally_of_flows hflow (htaken ▸ hsound.1.1)
  | ended hfinished hsound hyield herrors hend =>
      refine ⟨?_, ?_, fun _ _ => ⟨hsound, hyield⟩,
        fun _ _ => ⟨herrors, fun _ => hend⟩, hlater⟩
      · rw [hyield]
      · intro n hn
        rw [hyield]
        exact (hsound.1.2.1 n hn).le
  | failed hfinished hcause hyield hwithin herrors =>
      refine ⟨hyield, hwithin, fun _ hnone => ?_,
        fun hsound ht => absurd hsound (hcause ht), hlater⟩
      rw [herrors] at hnone
      cases hnone

/-! ## Writing a body out -/

/-- A body that is written out without an error was sound; what has reached the
writer is all of it that had not been read before, and it was counted. -/
theorem writeTo_ok {n : Nat} {w' : Writer} :
    ∀ {clocks : List PollClock} {outs : List Polled} {b : ResponseStream}
      {w : Writer} {written : Nat},
    StreamInv sha length digest events False outs b → errors outs = 0 →
    writeTo sha clocks b w written = (some (.ok n), w') →
    Sound sha length digest events ∧
    ∃ tail, yielded outs ++ tail = bodyBytes events ∧
      w'.content = w.content ++ tail ∧ n = written + tail.length
  | [], outs, b, w, written, _, _, h => by
      rw [writeTo] at h
      cases h
  | clock :: later, outs, b, w, written, hinv, hnone, h => by
      have hinv' :
          StreamInv sha length digest events False
            ((b.pollNext sha clock).1 :: outs)
          (b.pollNext sha clock).2 := pollNext_inv (fun h => h.elim) hinv
      rw [writeTo] at h
      split at h
      · next b' hpoll =>
          rw [hpoll] at hinv'
          have hstep := writeTo_ok hinv' ((errors_cons rfl).trans hnone) h
          simpa [yielded, Polled.data] using hstep
      · next b' hpoll =>
          rw [hpoll] at hinv'
          simp only [Prod.mk.injEq, Option.some.injEq] at h
          obtain ⟨hflush, rfl⟩ := h
          split at hflush
          · cases hflush
            have hsame : yielded (.ready none :: outs) = yielded outs := by
              simp [yielded, Polled.data]
            have hcount : errors (.ready none :: outs) = 0 :=
              (errors_cons rfl).trans hnone
            cases hinv' with
            | streaming taken hopen hlength hdigest htaken hflow hcount
                hreceived hroom hwithin hhashed
                hyield hrunning =>
                exact absurd
                  (hrunning _ (List.mem_cons_self ..)).2 Bool.false_ne_true.symm
            | ended hfinished hsound hyield herrors hend =>
                refine ⟨hsound, [], ?_, ?_, rfl⟩
                · rw [List.append_nil, ← hsame]
                  exact hyield
                · rw [List.append_nil]
            | failed hfinished hcause hyield hwithin herrors =>
                rw [hcount] at herrors
                cases herrors
          · cases hflush
      · cases h
      · next chunk b' hpoll =>
          rw [hpoll] at hinv'
          split at h
          · cases h
          · next w₁ hwrite =>
              split at h
              · cases h
              · split at h
                · cases h
                · have hcount :
                      errors (.ready (some (.ok chunk)) :: outs) = 0 :=
                    (errors_cons rfl).trans hnone
                  obtain ⟨hsound, tail, hall, hcontent, hn⟩ :=
                    writeTo_ok hinv' hcount h
                  refine ⟨hsound, chunk ++ tail, ?_, ?_, ?_⟩
                  · rw [← hall, ← List.append_assoc]
                    rfl
                  · rw [hcontent, Writer.writeAll_true hwrite,
                      List.append_assoc]
                  · rw [hn, List.length_append, Nat.add_assoc]

end Stream

end S3Wire
