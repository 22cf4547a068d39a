/-
# `S3Wire.Stream.Delivery` — a body is the declared bytes, or it is an error

What `TransportBody` makes of an inner stream, for every way the stream is cut
into chunks and every pattern of polls.

`verdict` is the specification: what a stream is worth, read off its events
without any of the machinery of the body.  `BodyInv` ties every state of the
body to it; one poll keeps it (`pollFrame_inv`), so every run does
(`polls_inv`).  Bodies in memory and snapshots of files are worth their bytes
every time they are asked for, which is why they may be sent again.
-/
import S3Wire.Lib.History
import S3Wire.Stream.Upload

namespace S3Wire

/-! ## What was yielded -/

namespace Polled

/-- The bytes of a poll. -/
def data : Polled → Option Bytes
  | .ready (some (.ok bytes)) => some bytes
  | _ => none

def isError : Polled → Bool
  | .ready (some (.error _)) => true
  | _ => false

def isEnd : Polled → Bool
  | .ready none => true
  | _ => false

end Polled

/-- The data frames of a run, joined; the run is latest first. -/
def yielded : List Polled → Bytes
  | [] => []
  | out :: outs => yielded outs ++ out.data.getD []

/-- The error frames of a run. -/
def errors (outs : List Polled) : Nat := outs.countP Polled.isError

/-! ## What a stream is worth -/

section Verdict

variable (sha : Sha256) (length : Nat) (expected : Bytes)

/-- The bytes of a stream: its chunks up to its end or its first error. -/
def innerBytes : List StreamEvent → Bytes
  | [] => []
  | .chunk bytes :: rest => bytes ++ innerBytes rest
  | .pending :: rest => innerBytes rest
  | .error :: _ => []
  | .ended :: _ => []

/-- What the stream has shown, after `before`: that it is exactly the declared
body, that it is not, or neither yet. -/
def verdict : Bytes → List StreamEvent → Option Bool
  | _, [] => none
  | before, .pending :: rest => verdict before rest
  | before, .chunk bytes :: rest =>
      if length < (before ++ bytes).length then some false
      else verdict (before ++ bytes) rest
  | _, .error :: _ => some false
  | before, .ended :: _ =>
      some (before.length = length ∧ sha.digest before = expected : Bool)

/-- The stream ends after exactly the declared bytes. -/
def Delivers (events : List StreamEvent) : Prop :=
  ∃ flow rest, events = flow ++ .ended :: rest ∧
    (∀ e ∈ flow, e ≠ .error ∧ e ≠ .ended) ∧
    (innerBytes flow).length = length ∧ sha.digest (innerBytes flow) = expected

/-- The stream has failed, ended or run over the declared length. -/
def Decided (events : List StreamEvent) : Prop :=
  .error ∈ events ∨ .ended ∈ events ∨ length < (innerBytes events).length

variable {sha length expected}

theorem verdict_append :
    ∀ {before : Bytes} {taken : List StreamEvent} (rest : List StreamEvent),
    verdict sha length expected before taken = none →
    verdict sha length expected before (taken ++ rest) =
        verdict sha length expected (before ++ innerBytes taken) rest ∧
      innerBytes (taken ++ rest) = innerBytes taken ++ innerBytes rest
  | before, [], rest, _ => by simp [innerBytes]
  | before, .pending :: taken, rest, h => @verdict_append before taken rest h
  | before, .chunk bytes :: taken, rest, h => by
      simp only [verdict] at h
      split at h
      · cases h
      · next hle =>
          obtain ⟨hv, hi⟩ := verdict_append rest h
          simp only [List.cons_append, verdict, innerBytes, if_neg hle]
          rw [hv, hi]
          simp
  | before, .error :: taken, rest, h => nomatch h
  | before, .ended :: taken, rest, h => nomatch h

theorem verdict_eq_true : ∀ {before : Bytes} {events : List StreamEvent},
    verdict sha length expected before events = some true ↔
      ∃ flow rest, events = flow ++ .ended :: rest ∧
      (∀ e ∈ flow, e ≠ .error ∧ e ≠ .ended) ∧
        (before ++ innerBytes flow).length = length ∧
        sha.digest (before ++ innerBytes flow) = expected
  | before, [] => by simp [verdict]
  | before, .pending :: events => by
      simp only [verdict]
      rw [verdict_eq_true]
      constructor
      · rintro ⟨flow, rest, rfl, hflow, h⟩
        exact ⟨.pending :: flow, rest, rfl,
          List.forall_mem_cons.mpr ⟨by simp, hflow⟩, h⟩
      · rintro ⟨flow, rest, heq, hflow, h⟩
        obtain ⟨rfl, -⟩ | ⟨flow, rfl, rfl⟩ := List.cons_eq_append_iff.mp heq
        · simp_all
        · exact ⟨flow, rest, rfl, fun e he => hflow e (by simp [he]), h⟩
  | before, .chunk bytes :: events => by
      simp only [verdict]
      constructor
      · intro h
        split at h
        · cases h
        · obtain ⟨flow, rest, rfl, hflow, hlen, hsha⟩ := verdict_eq_true.mp h
          exact ⟨.chunk bytes :: flow, rest, rfl,
            List.forall_mem_cons.mpr ⟨by simp, hflow⟩,
            by simpa [innerBytes] using hlen, by simpa [innerBytes] using hsha⟩
      · rintro ⟨flow, rest, heq, hflow, hlen, hsha⟩
        obtain ⟨rfl, hend⟩ | ⟨flow, rfl, rfl⟩ := List.cons_eq_append_iff.mp heq
        · cases hend
        · simp only [innerBytes, ← List.append_assoc] at hlen hsha
          rw [if_neg (by rw [← hlen]; simp), verdict_eq_true]
          exact ⟨flow, rest, rfl, fun e he => hflow e (by simp [he]), hlen,
            hsha⟩
  | before, .error :: events => by
      simp only [verdict]
      constructor
      · intro h
        cases h
      · rintro ⟨flow, rest, heq, hflow, -⟩
        obtain ⟨rfl, hend⟩ | ⟨flow, rfl, -⟩ := List.cons_eq_append_iff.mp heq
        · cases hend
        · exact absurd rfl (hflow .error (by simp)).1
  | before, .ended :: events => by
      simp only [verdict, Option.some.injEq, decide_eq_true_eq]
      constructor
      · rintro ⟨hlen, hsha⟩
        exact ⟨[], events, rfl, by simp, by simpa [innerBytes] using hlen,
          by simpa [innerBytes] using hsha⟩
      · rintro ⟨flow, rest, heq, hflow, hlen, hsha⟩
        obtain ⟨rfl, -⟩ | ⟨flow, rfl, -⟩ := List.cons_eq_append_iff.mp heq
        · exact ⟨by simpa [innerBytes] using hlen,
            by simpa [innerBytes] using hsha⟩
        · exact absurd rfl (hflow .ended (by simp)).2

theorem verdict_eq_none : ∀ {before : Bytes} {events : List StreamEvent},
    before.length ≤ length →
    (verdict sha length expected before events = none ↔
      .error ∉ events ∧ .ended ∉ events ∧
      (before ++ innerBytes events).length ≤ length)
  | before, [], hle => by simp [verdict, innerBytes, hle]
  | before, .pending :: events, hle => by
      simp only [verdict, innerBytes]
      rw [verdict_eq_none hle]
      simp
  | before, .chunk bytes :: events, hle => by
      simp only [verdict, innerBytes]
      split
      · next hlt =>
          simp only [List.length_append] at hlt ⊢
          constructor
          · intro h
            cases h
          · rintro ⟨-, -, h⟩
            omega
      · next hge =>
          rw [verdict_eq_none (by omega)]
          simp
  | before, .error :: events, hle => by simp [verdict]
  | before, .ended :: events, hle => by simp [verdict]

theorem delivers_iff {events : List StreamEvent} :
    Delivers sha length expected events ↔
    verdict sha length expected [] events = some true := by
  rw [verdict_eq_true]
  rfl

theorem decided_iff {events : List StreamEvent} :
    Decided length events ↔ verdict sha length expected [] events ≠ none := by
  rw [ne_eq, verdict_eq_none (by simp)]
  simp only [Decided, List.nil_append]
  constructor
  · rintro (h | h | h) ⟨h1, h2, h3⟩
    · exact h1 h
    · exact h2 h
    · omega
  · intro h
    by_contra hno
    simp only [not_or, not_lt] at hno
    exact h hno

end Verdict

/-! ## The invariant of the body -/

section Body

variable {sha : Sha256} {length : Nat} {expected : Bytes}
  {events : List StreamEvent}
  {outs : List Polled} {b : TransportBody}

open TransportBody

/-- The stream has given `seen` so far, and nothing is decided yet. -/
structure Seen (sha : Sha256) (length : Nat) (expected : Bytes)
    (taken : List StreamEvent) (seen : Bytes) : Prop where
  undecided : verdict sha length expected [] taken = none
  bytes : innerBytes taken = seen

/-- Nothing but data and waiting so far. -/
def Running (outs : List Polled) : Prop :=
  ∀ out ∈ outs, out.isError = false ∧ out.isEnd = false

/-- The state of a body that is not finished: it has passed on all it has seen,
or all but the last declared bytes. -/
inductive Unfinished (sha : Sha256) (length : Nat) (expected : Bytes)
    (taken : List StreamEvent) (outs : List Polled) (b : TransportBody) : Prop
  | active (seen : Bytes) (hseen : Seen sha length expected taken seen)
      (hb : b = ⟨b.stream, length - seen.length, expected, seen, none, false⟩)
      (hshort : seen.length < length ∨ length = 0 ∧ seen = [])
      (hyield : yielded outs = seen)
  | withheld (seen final : Bytes)
      (hseen : Seen sha length expected taken (seen ++ final))
      (hb : b =
        ⟨b.stream, final.length, expected, seen ++ final, some final, false⟩)
      (hfull : (seen ++ final).length = length) (hfinal : final ≠ [])
      (hyield : yielded outs = seen)

/-- Every state of a body, after the events `events` of which `taken` were
taken. -/
inductive BodyInv (sha : Sha256) (length : Nat) (expected : Bytes)
    (events : List StreamEvent) (outs : List Polled) (b : TransportBody) : Prop
  | unfinished (taken : List StreamEvent) (htaken : events = taken ++ b.stream)
      (hopen : Unfinished sha length expected taken outs b)
      (hrunning : Running outs)
  | delivered (hfinished : b.finished = true) (hremaining : b.remaining = 0)
      (hverdict : verdict sha length expected [] events = some true)
      (hyield : yielded outs = innerBytes events)
      (hlength : (innerBytes events).length = length)
      (herrors : errors outs = 0)
  | refused (hfinished : b.finished = true)
      (hverdict : verdict sha length expected [] events = some false)
      (hyield : yielded outs <+: innerBytes events)
      (hshort : (yielded outs).length < length ∨ length = 0 ∧ yielded outs = [])
      (herrors : errors outs = 1)

theorem errors_of_running (h : Running outs) : errors outs = 0 := by
  rw [errors, List.countP_eq_zero]
  intro out hout
  simp [(h out hout).1]

theorem Unfinished.yielded_prefix {taken : List StreamEvent}
    (h : Unfinished sha length expected taken outs b) :
    yielded outs <+: innerBytes taken := by
  cases h with
  | active seen hseen hb hshort hyield => rw [hyield, hseen.bytes]
  | withheld seen final hseen hb hfull hfinal hyield =>
      rw [hyield, hseen.bytes]
      exact List.prefix_append seen final

theorem Unfinished.short {taken : List StreamEvent}
    (h : Unfinished sha length expected taken outs b) :
    (yielded outs).length < length ∨ length = 0 ∧ yielded outs = [] := by
  cases h with
  | active seen hseen hb hshort hyield => rwa [hyield]
  | withheld seen final hseen hb hfull hfinal hyield =>
      left
      have := List.length_pos_iff.mpr hfinal
      rw [hyield]
      simp only [List.length_append] at hfull
      omega

theorem Unfinished.undecided {taken : List StreamEvent}
    (h : Unfinished sha length expected taken outs b) :
    verdict sha length expected [] taken = none := by
  cases h with
  | active seen hseen hb hshort hyield => exact hseen.undecided
  | withheld seen final hseen hb hfull hfinal hyield => exact hseen.undecided

theorem Unfinished.notFinished {taken : List StreamEvent}
    (h : Unfinished sha length expected taken outs b) : b.finished = false := by
  cases h with
  | active seen hseen hb hshort hyield => rw [hb]
  | withheld seen final hseen hb hfull hfinal hyield => rw [hb]

theorem Unfinished.sizeHint {taken : List StreamEvent}
    (h : Unfinished sha length expected taken outs b) :
    b.sizeHint = length - (yielded outs).length := by
  cases h with
  | active seen hseen hb hshort hyield =>
      rw [hyield, TransportBody.sizeHint, hb]
  | withheld seen final hseen hb hfull hfinal hyield =>
      rw [hyield, TransportBody.sizeHint, hb]
      simp only [List.length_append] at hfull ⊢
      omega

theorem Seen.snoc {taken : List StreamEvent} {seen seen' : Bytes}
    {event : StreamEvent} (h : Seen sha length expected taken seen)
    (hv : verdict sha length expected seen [event] = none)
    (hb : seen ++ innerBytes [event] = seen') :
    Seen sha length expected (taken ++ [event]) seen' := by
  obtain ⟨happend, hinner⟩ := verdict_append [event] h.undecided
  refine ⟨?_, ?_⟩
  · rw [happend, h.bytes, List.nil_append, hv]
  · rw [hinner, h.bytes, hb]

theorem Seen.verdict {taken : List StreamEvent} {seen : Bytes}
    (h : Seen sha length expected taken seen) (rest : List StreamEvent) :
    S3Wire.verdict sha length expected []
    (taken ++ rest) = S3Wire.verdict sha length expected seen rest ∧
      innerBytes (taken ++ rest) = seen ++ innerBytes rest := by
  obtain ⟨happend, hinner⟩ := verdict_append rest h.undecided
  rw [happend, hinner, h.bytes]
  simp

/-- An error that ends an unfinished body, when the stream is not the declared
one. -/
theorem BodyInv.refuse {taken rest : List StreamEvent} {b' : TransportBody}
    {e : S3Error} (h : Unfinished sha length expected taken outs b)
    (hrunning : Running outs)
    (hverdict : verdict sha length expected [] (taken ++ rest) = some false)
    (hfinished : b'.finished = true) :
    BodyInv sha length expected (taken ++ rest)
      (.ready (some (.error e)) :: outs) b' := by
  have hsame : yielded (.ready (some (.error e)) :: outs) = yielded outs := by
    simp [yielded, Polled.data]
  refine .refused hfinished hverdict ?_ (hsame ▸ h.short) ?_
  · rw [hsame, (verdict_append rest h.undecided).2]
    exact h.yielded_prefix.trans (List.prefix_append _ _)
  · rw [errors, List.countP_cons_of_pos rfl]
    have := errors_of_running hrunning
    rw [errors] at this
    omega

theorem running_cons {out : Polled} (h : Running outs)
    (herror : out.isError = false) (hend : out.isEnd = false) :
    Running (out :: outs) :=
  List.forall_mem_cons.mpr ⟨⟨herror, hend⟩, h⟩

theorem Seen.idle {taken : List StreamEvent} {event : StreamEvent}
    {seen : Bytes} (h : Seen sha length expected taken seen)
    (hle : seen.length ≤ length)
    (hidle : event = .pending ∨ event = .chunk []) :
    Seen sha length expected (taken ++ [event]) seen := by
  rcases hidle with rfl | rfl
  · exact h.snoc rfl (by simp [innerBytes])
  · refine h.snoc ?_ (by simp [innerBytes])
    rw [S3Wire.verdict, if_neg (by simpa using hle)]
    rfl

theorem Unfinished.idle {taken : List StreamEvent} {event : StreamEvent}
    (h : Unfinished sha length expected taken outs b)
    (hidle : event = .pending ∨ event = .chunk []) :
    Unfinished sha length expected (taken ++ [event]) outs b := by
  cases h with
  | active seen hseen hb hshort hy =>
      refine .active seen (hseen.idle ?_ hidle) hb hshort hy
      rcases hshort with hlt | ⟨h0, rfl⟩
      · omega
      · simp
  | withheld seen final hseen hb hfull hfinal hy =>
      exact .withheld seen final (hseen.idle hfull.le hidle) hb hfull hfinal hy

theorem Unfinished.cons_pending {taken : List StreamEvent}
    (h : Unfinished sha length expected taken outs b) :
    Unfinished sha length expected taken (.pending :: outs) b := by
  have hyield : yielded (.pending :: outs) = yielded outs := by
    simp [yielded, Polled.data]
  cases h with
  | active seen hseen hb hshort hy =>
      exact .active seen hseen hb hshort (hyield.trans hy)
  | withheld seen final hseen hb hfull hfinal hy =>
      exact .withheld seen final hseen hb hfull hfinal (hyield.trans hy)

theorem BodyInv.wait {taken : List StreamEvent}
    (h : Unfinished sha length expected taken outs b) (hrunning : Running outs)
    (htaken : events = taken ++ .pending :: b.stream) :
    BodyInv sha length expected events (.pending :: outs) b :=
  .unfinished (taken ++ [.pending]) (by simp [htaken])
    (h.idle (Or.inl rfl)).cons_pending
    (running_cons hrunning rfl rfl)

/-- A body that has not been closed is unfinished whatever is left of its
stream. -/
theorem Unfinished.setStream {taken : List StreamEvent}
    (rest : List StreamEvent)
    (h : Unfinished sha length expected taken outs b) :
    Unfinished sha length expected taken outs { b with stream := rest } := by
  cases h with
  | active seen hseen hb hshort hy =>
      exact .active seen hseen (by rw [hb]) hshort hy
  | withheld seen final hseen hb hfull hfinal hy =>
      exact .withheld seen final hseen (by rw [hb]) hfull hfinal hy

theorem verdict_overrun {seen bytes : Bytes} {rest : List StreamEvent}
    (h : length < (seen ++ bytes).length) :
    verdict sha length expected seen (.chunk bytes :: rest) = some false := by
  rw [verdict, if_pos h]

theorem takeTrailing_inv {taken rest : List StreamEvent} {seen final : Bytes}
    (event : StreamEvent)
    (hseen : Seen sha length expected taken (seen ++ final))
    (hb : b = ⟨rest, final.length, expected, seen ++ final, some final, false⟩)
    (hfull : (seen ++ final).length = length) (hfinal : final ≠ [])
    (hyield : yielded outs = seen) (hrunning : Running outs) :
    match b.takeTrailing sha final event with
    | some (out, b') =>
      BodyInv sha length expected (taken ++ event :: rest) (out :: outs) b'
    | none => Unfinished sha length expected (taken ++ [event]) outs b := by
  have hopen : Unfinished sha length expected taken outs b :=
    .withheld seen final hseen (by rw [hb]) hfull hfinal hyield
  obtain ⟨hverdict, hinner⟩ := hseen.verdict (event :: rest)
  cases event with
  | chunk bytes =>
      by_cases hempty : bytes.isEmpty = true
      · obtain rfl := List.isEmpty_iff.mp hempty
        exact hopen.idle (Or.inr rfl)
      · rw [takeTrailing, if_neg hempty]
        refine BodyInv.refuse hopen hrunning
          (hverdict.trans (verdict_overrun ?_)) rfl
        have := List.length_pos_iff.mpr fun h => hempty (List.isEmpty_iff.mpr h)
        rw [List.length_append]
        omega
  | error => exact BodyInv.refuse hopen hrunning hverdict rfl
  | ended =>
      have hdigest : sha.digest b.hashed = sha.digest (seen ++ final) := by
        rw [hb]
      have hexpected : b.expectedSha256 = expected := by rw [hb]
      by_cases hsha : sha.digest (seen ++ final) = expected
      · rw [takeTrailing,
          if_neg (by rw [hdigest, hexpected]; exact not_not.mpr hsha)]
        have hall : innerBytes (taken ++ .ended :: rest) = seen ++ final := by
          rw [hinner]
          simp [innerBytes]
        refine .delivered rfl rfl ?_ ?_ (by rw [hall, hfull]) ?_
        · rw [hverdict]
          simp [verdict, hfull, hsha]
        · rw [hall, yielded, hyield]
          rfl
        · rw [errors, List.countP_cons_of_neg (by simp [Polled.isError])]
          exact errors_of_running hrunning
      · rw [takeTrailing, if_pos (by rw [hdigest, hexpected]; exact hsha)]
        refine BodyInv.refuse hopen hrunning ?_ rfl
        rw [hverdict]
        simp [verdict, hsha]
  | pending => exact .wait hopen hrunning (by rw [hb])

theorem takeChunk_inv {taken rest : List StreamEvent} {seen : Bytes}
    (event : StreamEvent) (hlength : length < 2 ^ 64)
    (hseen : Seen sha length expected taken seen)
    (hb : b = ⟨rest, length - seen.length, expected, seen, none, false⟩)
    (hshort : seen.length < length ∨ length = 0 ∧ seen = [])
    (hyield : yielded outs = seen) (hrunning : Running outs) :
    match b.takeChunk sha event with
    | .inl (out, b') =>
      BodyInv sha length expected (taken ++ event :: rest) (out :: outs) b'
    | .inr b' =>
        b'.stream = rest ∧
            Unfinished sha length expected (taken ++ [event]) outs b' := by
  have hopen : Unfinished sha length expected taken outs b :=
    .active seen hseen (by rw [hb]) hshort hyield
  obtain ⟨hverdict, hinner⟩ := hseen.verdict (event :: rest)
  have hremaining : b.remaining = length - seen.length := by rw [hb]
  have hle : seen.length ≤ length := by
    rcases hshort with hlt | ⟨h0, rfl⟩
    · omega
    · simp
  cases event with
  | chunk bytes =>
      by_cases hempty : bytes.isEmpty = true
      · obtain rfl := List.isEmpty_iff.mp hempty
        exact ⟨by rw [hb], hopen.idle (Or.inr rfl)⟩
      have hpos := List.length_pos_iff.mpr fun h =>
        hempty (List.isEmpty_iff.mpr h)
      rw [takeChunk, if_neg hempty]
      by_cases hhuge : 2 ^ 64 ≤ bytes.length
      · rw [if_pos hhuge]
        refine BodyInv.refuse hopen hrunning
          (hverdict.trans (verdict_overrun ?_)) rfl
        rw [List.length_append]
        omega
      rw [if_neg hhuge]
      by_cases hover : bytes.length > b.remaining
      · rw [if_pos hover]
        refine BodyInv.refuse hopen hrunning
          (hverdict.trans (verdict_overrun ?_)) rfl
        rw [List.length_append]
        omega
      rw [if_neg hover]
      have hseen' :
          Seen sha length expected (taken ++ [.chunk bytes])
              (seen ++ bytes) := by
        refine hseen.snoc ?_ (by simp [innerBytes])
        rw [verdict, if_neg (by rw [List.length_append]; omega)]
        rfl
      by_cases hlast : bytes.length = b.remaining
      · rw [if_pos hlast]
        refine ⟨by rw [hb],
          .withheld seen bytes hseen' ?_ ?_
            (List.length_pos_iff.mp hpos) hyield⟩
        · rw [← hlast] at hremaining
          simp only [hb, hremaining]
        · rw [List.length_append]
          omega
      · rw [if_neg hlast]
        refine .unfinished (taken ++ [.chunk bytes]) (by rw [hb]; simp) ?_
          (running_cons hrunning rfl rfl)
        refine .active (seen ++ bytes) hseen' ?_ (Or.inl ?_) ?_
        · simp only [hb, List.length_append, Nat.sub_sub]
        · rw [List.length_append]
          omega
        · rw [yielded, hyield]
          rfl
  | error => exact BodyInv.refuse hopen hrunning hverdict rfl
  | ended =>
      have hdigest : sha.digest b.hashed = sha.digest seen := by rw [hb]
      have hexpected : b.expectedSha256 = expected := by rw [hb]
      by_cases hrest : b.remaining ≠ 0
      · rw [takeChunk, if_pos hrest]
        refine BodyInv.refuse hopen hrunning ?_ rfl
        rw [hverdict]
        have hne : seen.length ≠ length := by omega
        simp [verdict, hne]
      rw [takeChunk, if_neg hrest]
      -- with nothing left to send, nothing was declared
      obtain ⟨hzero, rfl⟩ : length = 0 ∧ seen = [] := by
        rcases hshort with hlt | h
        · omega
        · exact h
      by_cases hsha : sha.digest [] = expected
      · rw [if_pos (by rw [hdigest, hexpected]; exact hsha)]
        refine .delivered rfl (not_not.mp hrest) ?_ ?_ ?_ ?_
        · rw [hverdict]
          simp [verdict, hzero, hsha]
        · rw [hinner, yielded, hyield]
          rfl
        · rw [hinner, hzero]
          rfl
        · rw [errors, List.countP_cons_of_neg (by simp [Polled.isError])]
          exact errors_of_running hrunning
      · rw [if_neg (by rw [hdigest, hexpected]; exact hsha)]
        refine BodyInv.refuse hopen hrunning ?_ rfl
        rw [hverdict]
        simp [verdict, hsha]
  | pending => exact .wait hopen hrunning (by rw [hb])

/-- The loop of one poll: each turn takes an event, and the last one answers. -/
theorem pollLoop_inv (hlength : length < 2 ^ 64) (hrunning : Running outs) :
    ∀ (rest : List StreamEvent) {taken : List StreamEvent} {b : TransportBody},
      Unfinished sha length expected taken outs b →
      BodyInv sha length expected (taken ++ rest)
        ((pollLoop sha rest b).1 :: outs)
        (pollLoop sha rest b).2
  | [], taken, b, h =>
      .unfinished taken (by simp [pollLoop]) (h.setStream []).cons_pending
        (running_cons hrunning rfl rfl)
  | event :: rest, taken, b, h => by
      have hassoc : taken ++ event :: rest = (taken ++ [event]) ++ rest := by
        simp
      cases h with
      | active seen hseen hb hshort hyield =>
          have htake :=
            takeChunk_inv (b := { b with stream := rest }) event hlength hseen
            (by rw [hb]) hshort hyield hrunning
          rw [pollLoop_active (by rw [hb])]
          cases hresult : takeChunk sha { b with stream := rest } event with
          | inl result =>
              rw [hresult] at htake
              exact htake
          | inr b' =>
              rw [hresult] at htake
              rw [hassoc]
              exact pollLoop_inv hlength hrunning rest htake.2
      | withheld seen final hseen hb hfull hfinal hyield =>
          have htake :=
            takeTrailing_inv (b := { b with stream := rest }) event hseen
            (by rw [hb]) hfull hfinal hyield hrunning
          rw [pollLoop_withheld (by rw [hb])]
          cases hresult :
              takeTrailing sha { b with stream := rest } final event with
          | some result =>
              rw [hresult] at htake
              exact htake
          | none =>
              rw [hresult] at htake
              rw [hassoc]
              exact pollLoop_inv hlength hrunning rest htake

/-- **One poll keeps the invariant.** -/
theorem pollFrame_inv (hlength : length < 2 ^ 64)
    (h : BodyInv sha length expected events outs b) :
    BodyInv sha length expected events ((b.pollFrame sha).1 :: outs)
      (b.pollFrame sha).2 := by
  -- a finished body answers with the end, which is no data and no error
  have hyieldEnd : yielded (.ready none :: outs) = yielded outs := by
    simp [yielded, Polled.data]
  have herrorsEnd : errors (.ready none :: outs) = errors outs := by
    rw [errors, List.countP_cons_of_neg (by simp [Polled.isError])]
    rfl
  cases h with
  | unfinished taken htaken hopen hrunning =>
      rw [pollFrame, if_neg (by simp [hopen.notFinished]), htaken]
      exact pollLoop_inv hlength hrunning b.stream hopen
  | delivered hfinished hremaining hverdict hyield hlen herrors =>
      rw [pollFrame, if_pos hfinished]
      exact .delivered hfinished hremaining hverdict
        (hyieldEnd.trans hyield) hlen
        (herrorsEnd.trans herrors)
  | refused hfinished hverdict hyield hshort herrors =>
      rw [pollFrame, if_pos hfinished]
      exact .refused hfinished hverdict (hyieldEnd ▸ hyield)
        (hyieldEnd ▸ hshort)
        (herrorsEnd.trans herrors)

theorem new_inv :
    BodyInv sha length expected events []
    (TransportBody.new events length expected) := by
  refine .unfinished [] rfl (.active [] ⟨rfl, rfl⟩ rfl ?_ rfl)
    (by simp [Running])
  rcases Nat.eq_zero_or_pos length with h | h
  · exact Or.inr ⟨h, rfl⟩
  · exact Or.inl h

/-- **The invariant of every run.** -/
theorem polls_inv (sha : Sha256) (expected : Bytes) (events : List StreamEvent)
    (hlength : length < 2 ^ 64) : ∀ k : Nat,
    BodyInv sha length expected events
      (polls sha k (TransportBody.new events length expected)).1
      (polls sha k (TransportBody.new events length expected)).2
  | 0 => new_inv
  | k + 1 => pollFrame_inv hlength (polls_inv sha expected events hlength k)

/-! ### Progress -/

theorem takeTrailing_stream {final : Bytes} {event : StreamEvent} {out : Polled}
    {b' : TransportBody} (h : takeTrailing sha b final event = some (out, b')) :
    b'.stream = b.stream := by
  unfold takeTrailing at h
  split at h
  · split at h
    · cases h
    · cases h
      rfl
  · cases h
    rfl
  · split at h
    · cases h
      rfl
    · cases h
      rfl
  · cases h
    rfl

theorem takeChunk_stream (sha : Sha256) (b : TransportBody)
    (event : StreamEvent) :
    match takeChunk sha b event with
    | .inl (_, b') => b'.stream = b.stream
    | .inr b' => b'.stream = b.stream := by
  cases event with
  | chunk bytes =>
      by_cases hempty : bytes.isEmpty = true
      · rw [takeChunk, if_pos hempty]
      · rw [takeChunk, if_neg hempty]
        by_cases hhuge : 2 ^ 64 ≤ bytes.length
        · rw [if_pos hhuge]
          rfl
        · rw [if_neg hhuge]
          by_cases hover : bytes.length > b.remaining
          · rw [if_pos hover]
            rfl
          · rw [if_neg hover]
            by_cases hlast : bytes.length = b.remaining
            · rw [if_pos hlast]
            · rw [if_neg hlast]
  | error => rfl
  | ended =>
      by_cases hrest : b.remaining ≠ 0
      · rw [takeChunk, if_pos hrest]
        rfl
      · rw [takeChunk, if_neg hrest]
        by_cases hsha : sha.digest b.hashed = b.expectedSha256
        · rw [if_pos hsha]
        · rw [if_neg hsha]
  | pending => rfl

/-- A poll of a body that is not finished takes an event, if there is one. -/
theorem pollLoop_stream (sha : Sha256) :
    ∀ (rest : List StreamEvent) (b : TransportBody),
    (pollLoop sha rest b).2.stream.length ≤ rest.length - 1
  | [], b => by simp [pollLoop]
  | event :: rest, b => by
      cases hfinal : b.finalChunk with
      | none =>
          rw [pollLoop_active hfinal]
          have hstream := takeChunk_stream sha { b with stream := rest } event
          cases hresult : takeChunk sha { b with stream := rest } event with
          | inl result =>
              rw [hresult] at hstream
              simp [hstream]
          | inr b' =>
              have := pollLoop_stream sha rest b'
              simp only [List.length_cons]
              omega
      | some final =>
          rw [pollLoop_withheld hfinal]
          cases hresult :
              takeTrailing sha { b with stream := rest } final event with
          | some result =>
              simp [takeTrailing_stream hresult]
          | none =>
              have := pollLoop_stream sha rest { b with stream := rest }
              simp only [List.length_cons]
              omega

/-- After as many polls as it has events, the stream is used up or the body is
finished. -/
theorem polls_progress (sha : Sha256) (b : TransportBody) : ∀ k : Nat,
    (polls sha k b).2.finished = true ∨
    (polls sha k b).2.stream.length ≤ b.stream.length - k
  | 0 => Or.inr (by simp [polls])
  | k + 1 => by
      have hpoll :
        (polls sha (k + 1) b).2 = ((polls sha k b).2.pollFrame sha).2 := rfl
      rw [hpoll, pollFrame]
      by_cases hfinished : (polls sha k b).2.finished = true
      · rw [if_pos hfinished]
        exact Or.inl hfinished
      · rw [if_neg hfinished]
        have hle := (polls_progress sha b k).resolve_left hfinished
        have := pollLoop_stream sha (polls sha k b).2.stream (polls sha k b).2
        exact Or.inr (by omega)

theorem polls_finished (hlength : length < 2 ^ 64)
    (hdecided : verdict sha length expected [] events ≠ none) {k : Nat}
    (hk : events.length ≤ k) :
    (polls sha k (TransportBody.new events length expected)).2.finished =
      true := by
  rcases polls_progress sha
    (TransportBody.new events length expected) k with h | h
  · exact h
  · have hnil :
        (polls sha k (TransportBody.new events length expected)).2.stream =
            [] := by
      apply List.length_eq_zero_iff.mp
      simp only [TransportBody.new] at h ⊢
      omega
    cases polls_inv sha expected events hlength k with
    | unfinished taken htaken hopen hrunning =>
        rw [hnil, List.append_nil] at htaken
        exact absurd (htaken ▸ hopen.undecided) hdecided
    | delivered hfinished _ _ _ _ _ => exact hfinished
    | refused hfinished _ _ _ _ => exact hfinished

/-! ### After the end -/

theorem pollFrame_finished (h : b.finished = true) :
    (b.pollFrame sha).1 = .ready none := by
  rw [pollFrame, if_pos h]

/-- The body has said its last: an error, the end, or all the declared bytes. -/
def Ended (length : Nat) (outs : List Polled) : Prop :=
  (∃ out ∈ outs, out.isError = true ∨ out.isEnd = true) ∨
    0 < length ∧ length ≤ (yielded outs).length

theorem polls_closed (sha : Sha256) (expected : Bytes)
    (events : List StreamEvent) (hlength : length < 2 ^ 64) : ∀ k : Nat,
    Lib.Justified (fun out past => Ended length past → out = .ready none)
      (polls sha k (TransportBody.new events length expected)).1
  | 0 => trivial
  | k + 1 => by
      refine ⟨fun hended => ?_, polls_closed sha expected events hlength k⟩
      have hinv := polls_inv sha expected events hlength k
      have hfinished :
          (polls sha k (TransportBody.new events length expected)).2.finished =
              true := by
        cases hinv with
        | unfinished taken htaken hopen hrunning =>
            exfalso
            rcases hended with ⟨out, hout, h | h⟩ | ⟨hpos, hlen⟩
            · exact Bool.false_ne_true ((hrunning out hout).1.symm.trans h)
            · exact Bool.false_ne_true ((hrunning out hout).2.symm.trans h)
            · rcases hopen.short with h | ⟨h, -⟩ <;> omega
        | delivered hfinished _ _ _ _ _ => exact hfinished
        | refused hfinished _ _ _ _ => exact hfinished
      exact pollFrame_finished hfinished

theorem length_yielded_append (later : List Polled) :
    (yielded outs).length ≤ (yielded (later ++ outs)).length := by
  induction later with
  | nil => exact le_rfl
  | cons out later ih =>
      simp only [List.cons_append, yielded, List.length_append]
      omega

/-! ### The contract -/

/-- What a body has done after `k` polls, with the answers `outs`. -/
structure BodyContract (sha : Sha256) (length : Nat) (expected : Bytes)
    (events : List StreamEvent) (k : Nat) (outs : List Polled)
    (b : TransportBody) : Prop where
  inOrder : yielded outs <+: innerBytes events
  sized : errors outs = 0 →
    (yielded outs).length ≤ length ∧ b.sizeHint = length - (yielded outs).length
  full : 0 < length → (yielded outs).length = length →
    Delivers sha length expected events
  short : ¬ Delivers sha length expected events → 0 < length →
    (yielded outs).length < length
  oneError : ¬ Delivers sha length expected events →
    errors outs ≤ 1 ∧
    (∀ taken, events = taken ++ b.stream → Decided length taken →
      errors outs = 1) ∧
    (Decided length events → events.length ≤ k → errors outs = 1)
  clean : Delivers sha length expected events →
    errors outs = 0 ∧ (events.length < k → .ready none ∈ outs)
  ends : .ready none ∈ outs → errors outs = 0 →
    Delivers sha length expected events
  closed : ∀ later out earlier, outs = later ++ out :: earlier →
    (out.isError = true ∨ 0 < length ∧
      (yielded (out :: earlier)).length = length) →
    ∀ x ∈ later, x = .ready none

theorem bodyContract_closed (hlength : length < 2 ^ 64) {k : Nat}
    (later : List Polled) (out : Polled) (earlier : List Polled)
    (hsplit : (polls sha k (TransportBody.new events length expected)).1 =
      later ++ out :: earlier)
    (hlast : out.isError = true ∨ 0 < length ∧
      (yielded (out :: earlier)).length = length) :
    ∀ x ∈ later, x = .ready none := by
  intro x hx
  have hclosed := polls_closed sha expected events hlength k
  obtain ⟨l₁, l₂, rfl⟩ := List.append_of_mem hx
  rw [hsplit, List.append_assoc, List.cons_append] at hclosed
  refine hclosed.at_split ?_
  rcases hlast with herror | ⟨hpos, hfull⟩
  · exact Or.inl ⟨out, by simp, Or.inl herror⟩
  · exact Or.inr ⟨hpos, hfull ▸ length_yielded_append l₂⟩

theorem bodyContract (hlength : length < 2 ^ 64) (k : Nat) :
    BodyContract sha length expected events k
      (polls sha k (TransportBody.new events length expected)).1
      (polls sha k (TransportBody.new events length expected)).2 := by
  have hclosed := @bodyContract_closed sha length expected events hlength k
  have hlast : verdict sha length expected [] events ≠ none →
      events.length < k →
      .ready none ∈
          (polls sha k (TransportBody.new events length expected)).1 := by
    intro hdecided hk
    obtain ⟨m, rfl⟩ := Nat.exists_eq_add_of_lt hk
    have hfinished :=
      polls_finished hlength hdecided (Nat.le_add_right events.length m)
    exact List.mem_cons.mpr (Or.inl (pollFrame_finished hfinished).symm)
  have hearly : verdict sha length expected [] events ≠ none →
      events.length ≤ k →
      (polls sha k (TransportBody.new events length expected)).2.finished =
          true :=
    fun hdecided hk => polls_finished hlength hdecided hk
  have hinv := polls_inv sha expected events hlength k
  generalize polls sha k (TransportBody.new events length expected) = run at *
  cases hinv with
  | unfinished taken htaken hopen hrunning =>
      have herrors := errors_of_running hrunning
      have hnoend : .ready none ∉ run.1 := fun hmem =>
        Bool.false_ne_true ((hrunning _ hmem).2.symm.trans rfl)
      refine
        { inOrder := ?_
          sized := fun _ => ⟨?_, hopen.sizeHint⟩
          full := fun hpos hfull => ?_
          short := fun _ hpos => ?_
          oneError :=
            fun hno =>
              ⟨by omega, fun taken' htaken' hdecided => ?_,
                fun hdecided hk => ?_⟩
          clean :=
            fun hdelivers =>
              ⟨herrors, hlast (by simp [delivers_iff.mp hdelivers])⟩
          ends := fun hmem => absurd hmem hnoend
          closed := hclosed }
      · rw [htaken, (verdict_append run.2.stream hopen.undecided).2]
        exact hopen.yielded_prefix.trans (List.prefix_append _ _)
      · rcases hopen.short with h | ⟨-, h⟩
        · omega
        · simp [h]
      · rcases hopen.short with h | ⟨h, -⟩ <;> omega
      · rcases hopen.short with h | ⟨h, -⟩ <;> omega
      · rw [htaken] at htaken'
        rw [← List.append_cancel_right htaken'] at hdecided
        exact absurd hopen.undecided (decided_iff.mp hdecided)
      · have := hearly (decided_iff.mp hdecided) hk
        rw [hopen.notFinished] at this
        cases this
  | delivered hfinished hremaining hverdict hyield hlen herrors =>
      have hdelivers := delivers_iff.mpr hverdict
      exact
        { inOrder := by rw [hyield]
          sized := fun _ => by
            rw [hyield, hlen]
            exact ⟨le_rfl,
              by rw [TransportBody.sizeHint, hremaining, Nat.sub_self]⟩
          full := fun _ _ => hdelivers
          short := fun hno => absurd hdelivers hno
          oneError := fun hno => absurd hdelivers hno
          clean := fun _ => ⟨herrors, hlast (by simp [hverdict])⟩
          ends := fun _ _ => hdelivers
          closed := hclosed }
  | refused hfinished hverdict hyield hshort herrors =>
      have hno : ¬ Delivers sha length expected events := fun h => by
        rw [delivers_iff.mp h] at hverdict
        cases hverdict
      exact
        { inOrder := hyield
          sized := fun h => by omega
          full := fun hpos hfull => by rcases hshort with h | ⟨h, -⟩ <;> omega
          short := fun _ hpos => by rcases hshort with h | ⟨h, -⟩ <;> omega
          oneError :=
            fun _ => ⟨by omega, fun _ _ _ => herrors, fun _ _ => herrors⟩
          clean := fun h => absurd h hno
          ends := fun _ h => by omega
          closed := hclosed }

/-! ### Draining -/

/-- However it is polled the body yields no error, and after enough polls it has
ended and yielded all of `content`. -/
def Drains (sha : Sha256) (b : TransportBody) (content : Bytes) : Prop :=
  (∀ k, errors (polls sha k b).1 = 0) ∧
    ∃ enough, ∀ k, enough ≤ k → .ready none ∈ (polls sha k b).1 ∧
      yielded (polls sha k b).1 = content

theorem drains_of_delivers (hlength : length < 2 ^ 64)
    (h : Delivers sha length expected events) :
    Drains sha (TransportBody.new events length expected)
      (innerBytes events) := by
  refine ⟨fun k => ((bodyContract hlength k).clean h).1, events.length + 1,
    fun k hk => ?_⟩
  refine ⟨((bodyContract hlength k).clean h).2 hk, ?_⟩
  have hverdict := delivers_iff.mp h
  have hdecided : verdict sha length expected [] events ≠ none := by
    simp [hverdict]
  have hfinished := polls_finished hlength hdecided (Nat.le_of_succ_le hk)
  cases polls_inv sha expected events hlength k with
  | unfinished taken htaken hopen hrunning =>
      rw [hopen.notFinished] at hfinished
      cases hfinished
  | delivered _ _ _ hyield _ _ => exact hyield
  | refused _ hrefused _ _ _ =>
      rw [hverdict] at hrefused
      cases hrefused

theorem innerBytes_ended :
    ∀ {flow : List StreamEvent} (rest : List StreamEvent),
    (∀ e ∈ flow, e ≠ .error ∧ e ≠ .ended) →
    innerBytes (flow ++ .ended :: rest) = innerBytes flow
  | [], _, _ => rfl
  | .chunk bytes :: flow, rest, h => by
      rw [List.cons_append, innerBytes, innerBytes,
        innerBytes_ended rest fun e he => h e (List.mem_cons_of_mem _ he)]
  | .pending :: flow, rest, h =>
      @innerBytes_ended flow rest fun e he => h e (List.mem_cons_of_mem _ he)
  | .error :: flow, _, h => absurd rfl (h .error (List.mem_cons_self ..)).1
  | .ended :: flow, _, h => absurd rfl (h .ended (List.mem_cons_self ..)).2

theorem drains_of_flow {flow rest : List StreamEvent}
    (hlength : length < 2 ^ 64) (hflow : ∀ e ∈ flow, e ≠ .error ∧ e ≠ .ended)
    (hlen : (innerBytes flow).length = length)
    (hsha : sha.digest (innerBytes flow) = expected) :
    Drains sha (TransportBody.new (flow ++ .ended :: rest) length expected)
      (innerBytes flow) := by
  have h := drains_of_delivers hlength ⟨flow, rest, rfl, hflow, hlen, hsha⟩
  rwa [innerBytes_ended rest hflow] at h

end Body

/-! ## Replaying -/

namespace PreparedBody

variable {sha : Sha256} {file : FileReads} {source : UploadSource}
  {body : PreparedBody}

/-- The bytes of a body that can be replayed. -/
def content (body : PreparedBody) : Bytes :=
  match body.source with
  | .bytes buffer => buffer.bytes
  | .fileSnapshot snapshot => snapshot.contents.bytes
  | .oneShot _ => []

/-- The file system reads a snapshot back: it opens, and the reader returns the
bytes up to the declared length, in chunks and with pauses of its choice, and
then the end. -/
def ReadsBack (body : PreparedBody) (opened : Option (List StreamEvent)) :
    Prop :=
  ∀ snapshot, body.source = .fileSnapshot snapshot →
    ∃ flow rest, opened = some (flow ++ .ended :: rest) ∧
      (∀ e ∈ flow, e ≠ .error ∧ e ≠ .ended) ∧
      innerBytes flow = snapshot.contents.bytes.take body.length

/-- What preparing a body establishes: its length and its digest are those of
its bytes. -/
theorem prepare_ok (h : source.prepare sha file = .ok body)
    (hreplay : body.isReplayable = true) :
    body.length = body.content.length ∧
    sha.digest body.content = body.sha256 := by
  cases source with
  | bytes buffer =>
      simp only [UploadSource.prepare] at h
      rw [dif_pos buffer.bounded] at h
      cases h
      exact ⟨rfl, (cooperativeSha256_eq sha buffer.bytes).symm⟩
  | file path =>
      simp only [UploadSource.prepare, prepareFile] at h
      cases hcreate : FileSnapshot.create sha file true with
      | error e => simp [hcreate] at h
      | ok snapshot =>
          have hdigest := FileSnapshot.create_sha256 hcreate
          rw [if_pos rfl] at hdigest
          simp only [hcreate, hdigest, Except.ok.injEq] at h
          subst h
          exact ⟨rfl, rfl⟩
  | stream items length bounded sha256 =>
      simp only [UploadSource.prepare, Except.ok.injEq] at h
      subst h
      cases hreplay

/-- One attempt with a body that can be replayed: it drains to the signed bytes,
and the body is as before. -/
theorem requestBody_replayable {opened : Option (List StreamEvent)}
    (hreplay : body.isReplayable = true)
    (hlength : body.length = body.content.length)
    (hsha : sha.digest body.content = body.sha256)
    (hopened : body.ReadsBack opened) :
    (body.requestBody opened).2 = body ∧
      ∃ t, (body.requestBody opened).1 = .ok t ∧ Drains sha t body.content := by
  obtain ⟨source, length, bounded, sha256⟩ := body
  cases source with
  | bytes buffer =>
      refine ⟨rfl, _, rfl, ?_⟩
      have hbytes : innerBytes [.chunk buffer.bytes] = buffer.bytes := by
        simp [innerBytes]
      have := @drains_of_flow sha length sha256 [.chunk buffer.bytes] [] bounded
        (by simp)
        (hbytes.symm ▸ hlength.symm) (hbytes.symm ▸ hsha)
      rwa [hbytes] at this
  | fileSnapshot snapshot =>
      obtain ⟨flow, rest, rfl, hflow, hbytes⟩ := hopened snapshot rfl
      rw [hlength, content, List.take_length] at hbytes
      refine ⟨rfl, _, rfl, ?_⟩
      have := @drains_of_flow sha length sha256 flow rest bounded hflow
        (hbytes.symm ▸ hlength.symm) (hbytes.symm ▸ hsha)
      rwa [hbytes] at this
  | oneShot stream => cases hreplay

theorem requestBodies_replayable (hreplay : body.isReplayable = true)
    (hlength : body.length = body.content.length)
    (hsha : sha.digest body.content = body.sha256) :
    ∀ opens : List (Option (List StreamEvent)),
      (∀ opened ∈ opens, body.ReadsBack opened) →
      ∀ result ∈ body.requestBodies opens, ∃ t, result = .ok t ∧
      Drains sha t body.content
  | [], _, result, h => by simp [requestBodies] at h
  | opened :: opens, hopens, result, h => by
      obtain ⟨hsame, t, ht, hdrains⟩ :=
        requestBody_replayable hreplay hlength hsha
        (hopens opened (List.mem_cons_self ..))
      simp only [requestBodies, hsame, List.mem_cons] at h
      rcases h with rfl | h
      · exact ⟨t, ht, hdrains⟩
      · exact requestBodies_replayable hreplay hlength hsha opens
          (fun o ho => hopens o (List.mem_cons_of_mem _ ho)) result h

end PreparedBody

/-! ## The result -/

section Result

/-- **Upload bodies are checked against what was signed.**  A body over any
stream, polled any number of times, keeps the contract: it passes on bytes of
the stream in order, reports exactly what is left, yields the last declared byte
only of a stream that ends with the declared length and digest, yields one error
for a stream that shows to be any other, and nothing after its last frame.  So a
body in memory, and a snapshot that the file system reads back, drains at every
attempt to the same bytes, those whose digest was signed. -/
theorem uploadBodies_checked (sha : Sha256) :
    (∀ length expected events k, length < 2 ^ 64 →
      BodyContract sha length expected events k
        (TransportBody.polls sha k (TransportBody.new events length expected)).1
        (TransportBody.polls sha k
          (TransportBody.new events length expected)).2) ∧
    ∀ (source : UploadSource) file body, source.prepare sha file = .ok body →
      body.isReplayable = true →
      ∀ opens, (∀ opened ∈ opens, body.ReadsBack opened) →
        sha.digest body.content = body.sha256 ∧
        ∀ result ∈ body.requestBodies opens, ∃ t, result = .ok t ∧
        Drains sha t body.content := by
  refine ⟨fun length expected events k hlength => bodyContract hlength k,
    fun source file body hprepare hreplay opens hopens => ?_⟩
  obtain ⟨hlength, hsha⟩ := PreparedBody.prepare_ok hprepare hreplay
  exact ⟨hsha,
    PreparedBody.requestBodies_replayable hreplay hlength hsha opens hopens⟩

/-- A file of two reads. -/
def twoReads : FileReads := ⟨true, [some [104, 105], some [33], some []], 3⟩

/-- The snapshot of the file, read back whole and then byte by byte with a
pause. -/
def twoOpens : List (Option (List StreamEvent)) :=
  [some [.chunk [104, 105, 33], .ended],
    some [.chunk [104], .pending, .chunk [105], .chunk [33], .ended]]

theorem uploadBodies_checked_two_opens :
    ∃ body, (UploadSource.file "file".toList).prepare standardSha256 twoReads =
      .ok body ∧
      body.content = [104, 105, 33] ∧ (body.requestBodies twoOpens).length = 2 ∧
      ∀ result ∈ body.requestBodies twoOpens, ∃ t, result = .ok t ∧
        Drains standardSha256 t [104, 105, 33] := by
  let snapshot : FileSnapshot :=
    ⟨⟨[104, 105, 33], by decide⟩, some (standardSha256.digest [104, 105, 33])⟩
  let body : PreparedBody :=
    ⟨.fileSnapshot snapshot, 3, by decide, standardSha256.digest [104, 105, 33]⟩
  have hprepare :
    (UploadSource.file "file".toList).prepare standardSha256 twoReads =
      .ok body := rfl
  have hopens : ∀ opened ∈ twoOpens, body.ReadsBack opened := by
    intro opened hopened s hs
    cases hs
    simp only [twoOpens, List.mem_cons, List.not_mem_nil, or_false] at hopened
    rcases hopened with rfl | rfl
    · exact ⟨[.chunk [104, 105, 33]], [], rfl, by decide, by decide⟩
    · exact ⟨[.chunk [104], .pending, .chunk [105], .chunk [33]], [], rfl,
        by decide, by decide⟩
  exact ⟨body, hprepare, rfl, rfl,
    ((uploadBodies_checked standardSha256).2 _ _ body hprepare rfl twoOpens
      hopens).2⟩

end Result

end S3Wire
