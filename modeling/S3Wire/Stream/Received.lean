/-
# `S3Wire.Stream.Received` — the byte count of a download

`bytes_received` is documented as the number of bytes yielded so far.
`poll_next` counts a chunk before it compares the count with the declared
length, so the chunk that goes past the length is counted and not yielded.  That
is the only poll after which the two differ, and the stream is finished after
it: so the count of a run is right exactly when no poll of it was of this kind
(`Exceeds`).
-/
import S3Wire.Stream.Verified

namespace S3Wire

namespace ResponseStream

/-! ## One poll -/

/-- The chunk that the body gives next. -/
def nextChunk (b : ResponseStream) : Option Bytes :=
  match b.inner with
  | .chunk bytes :: _ => some bytes
  | _ => none

/-- Bytes that can be counted, and whose count is past the declared length. -/
def GoesPast (b : ResponseStream) (chunk : Bytes) : Prop :=
  chunk ≠ [] ∧ b.received + chunk.length < 2 ^ 64 ∧ ∃ n ∈ b.expectedLength,
    n.toNat < b.received + chunk.length

/-- The stream is open, no timer is due, and the body gives a chunk that goes
past the declared length. -/
def Exceeds (b : ResponseStream) (clock : PollClock) : Prop :=
  b.finished = false ∧ b.expired clock = false ∧ ∃ chunk ∈ b.nextChunk,
    b.GoesPast chunk

/-- What a poll yields is counted. -/
def Counts (b : ResponseStream) (after : Polled × ResponseStream) : Prop :=
  after.2.received = b.received + (after.1.data.getD []).length

/-- A poll counts what it does not yield, and nothing comes after it. -/
def Overcounts (b : ResponseStream) (after : Polled × ResponseStream) : Prop :=
  after.1.data = none ∧ b.received < after.2.received ∧ after.2.finished = true

section Poll

variable {sha : Sha256} {b : ResponseStream} {clock : PollClock} {now : Instant}
  {chunk : Bytes}

theorem takeChunk_counts (h : ¬ b.GoesPast chunk) :
    b.Counts (b.takeChunk now chunk) := by
  rw [takeChunk]
  split
  · rfl
  next hempty =>
  dsimp only
  split
  · rfl
  split
  · rfl
  next hroom =>
  split
  · next hpast =>
      obtain ⟨n, hn, hlt⟩ := (Option.any_eq_true ..).mp hpast
      refine absurd ⟨?_, Nat.lt_of_not_le hroom, n, hn, of_decide_eq_true hlt⟩ h
      rintro rfl
      exact hempty rfl
  · rfl

theorem takeChunk_overcounts (h : b.GoesPast chunk) :
    b.Overcounts (b.takeChunk now chunk) := by
  obtain ⟨hne, hroom, n, hn, hlt⟩ := h
  have hlength : 0 < chunk.length := List.length_pos_of_ne_nil hne
  have hempty : ¬ chunk.isEmpty = true := fun h => hne (List.isEmpty_iff.mp h)
  have hlong : ¬ 2 ^ 64 ≤ chunk.length := by omega
  have hpast :
      (b.expectedLength.any fun expected => expected.toNat <
          b.received + chunk.length) = true :=
    (Option.any_eq_true ..).mpr ⟨n, hn, decide_eq_true hlt⟩
  rw [takeChunk, if_neg hempty]
  dsimp only
  rw [if_neg hlong, if_neg (Nat.not_le.mpr hroom), if_pos hpast]
  exact ⟨rfl, Nat.lt_add_of_pos_right hlength, rfl⟩

theorem takeEnd_counts : b.Counts (b.takeEnd sha) := by
  rw [takeEnd]
  split
  · rfl
  split
  · rfl
  · dsimp only
    split
    · rfl
    · rfl

theorem pollNext_counts (h : ¬ b.Exceeds clock) :
    b.Counts (b.pollNext sha clock) := by
  cases hfinished : b.finished with
  | true =>
      rw [pollNext_finished hfinished]
      rfl
  | false =>
      cases hexpired : b.expired clock with
      | true =>
          obtain ⟨e, he⟩ := @pollNext_expired sha _ _ hfinished hexpired
          rw [he]
          rfl
      | false =>
          rw [pollNext_open hfinished hexpired, pollInner]
          cases hinner : b.inner with
          | nil => rfl
          | cons event rest =>
              cases event with
              | chunk bytes =>
                  have hchunk : b.nextChunk = some bytes := by
                    rw [nextChunk, hinner]
                  refine @takeChunk_counts { b with inner := rest } _ bytes ?_
                  intro hpast
                  exact h ⟨hfinished, hexpired, bytes, hchunk, hpast⟩
              | pending => rfl
              | error e => rfl
              | ended => exact @takeEnd_counts sha { b with inner := rest }

theorem pollNext_overcounts (h : b.Exceeds clock) :
    b.Overcounts (b.pollNext sha clock) := by
  obtain ⟨hopen, hexpired, chunk, hchunk, hpast⟩ := h
  rw [pollNext_open hopen hexpired, pollInner]
  cases hinner : b.inner with
  | nil =>
      rw [nextChunk, hinner] at hchunk
      cases hchunk
  | cons event rest =>
      rw [nextChunk, hinner] at hchunk
      cases event with
      | chunk bytes =>
          cases hchunk
          exact @takeChunk_overcounts { b with inner := rest } _ chunk hpast
      | pending => cases hchunk
      | error e => cases hchunk
      | ended => cases hchunk

end Poll

/-! ## A run -/

section Run

variable (sha : Sha256) {b : ResponseStream}

/-- The count is what it is documented to be. -/
def CountsYielded (clocks : List PollClock) (b : ResponseStream) : Prop :=
  (polls sha clocks b).2.bytesReceived = (yielded (polls sha clocks b).1).length

/-- No poll of the run takes a chunk past the declared length. -/
def StaysWithin : List PollClock → ResponseStream → Prop
  | [], _ => True
  | clock :: earlier, b =>
      StaysWithin earlier b ∧ ¬ (polls sha earlier b).2.Exceeds clock

theorem yielded_length (out : Polled) (outs : List Polled) :
    (yielded (out :: outs)).length =
      (yielded outs).length + (out.data.getD []).length := List.length_append

/-- The count is right as long as the run stays within the length; else the
stream has ended with too high a count. -/
theorem polls_received (hfresh : b.received = 0) : ∀ clocks : List PollClock,
    (StaysWithin sha clocks b ∧
      (polls sha clocks b).2.received =
        (yielded (polls sha clocks b).1).length) ∨
      (¬ StaysWithin sha clocks b ∧ (polls sha clocks b).2.finished = true ∧
        (yielded (polls sha clocks b).1).length <
          (polls sha clocks b).2.received)
  | [] => .inl ⟨trivial, hfresh⟩
  | clock :: earlier => by
      rw [StaysWithin, polls]
      dsimp only
      rw [yielded_length]
      rcases polls_received hfresh earlier with ⟨hwithin, hcount⟩ |
        ⟨hpast, hfinished, hlt⟩
      · by_cases hexceeds : (polls sha earlier b).2.Exceeds clock
        · obtain ⟨hdata, hmore, hfinished⟩ :=
            @pollNext_overcounts sha _ _ hexceeds
          refine .inr ⟨fun h => h.2 hexceeds, hfinished, ?_⟩
          rw [hdata, ← hcount]
          exact hmore
        · refine .inl ⟨⟨hwithin, hexceeds⟩, ?_⟩
          rw [← hcount]
          exact pollNext_counts hexceeds
      · rw [pollNext_finished hfinished]
        exact .inr ⟨fun h => hpast h.1, hfinished, hlt⟩

theorem countsYielded_iff (hfresh : b.received = 0) (clocks : List PollClock) :
    CountsYielded sha clocks b ↔ StaysWithin sha clocks b := by
  rcases polls_received sha hfresh clocks with ⟨hwithin, hcount⟩ |
    ⟨hpast, -, hlt⟩
  · exact iff_of_true hcount hwithin
  · exact iff_of_false hlt.ne' hpast

/-- At every point of every run the count is that of the bytes yielded so far if
and only if no poll up to there took a chunk past the declared length. -/
theorem bytesReceived_iff (stream : List DownloadEvent)
    (expectedLength : Option UInt64) (idleTimeout : Duration) (now : Instant)
    (clocks : List PollClock) :
    (CountsYielded sha clocks (new stream expectedLength idleTimeout now) ↔
      StaysWithin sha clocks (new stream expectedLength idleTimeout now)) ∧
    ∀ expectedSha256 deadline,
      CountsYielded sha clocks
        (withDeadline stream expectedLength expectedSha256 idleTimeout deadline
          now) ↔
        StaysWithin sha clocks
          (withDeadline stream expectedLength expectedSha256 idleTimeout
            deadline now) := by
  refine ⟨countsYielded_iff sha rfl clocks, ?_⟩
  intro expectedSha256 deadline
  exact countsYielded_iff sha rfl clocks

/-- Two bytes where one was declared: both are counted, and none is yielded. -/
theorem bytesReceived_overcounts :
    ¬ ∀ (sha : Sha256) (stream : List DownloadEvent)
      (expectedLength : Option UInt64) (idleTimeout : Duration)
      (now : Instant) (clocks : List PollClock),
      CountsYielded sha clocks (new stream expectedLength idleTimeout now) := by
  intro h
  have hcount : 2 = 0 :=
    h standardSha256 [.chunk [97, 98]] (some 1) 10 0 [⟨0, 0, 0⟩]
  cases hcount

end Run

end ResponseStream

end S3Wire
