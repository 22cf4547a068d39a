/-
# `S3Wire.Client.Request.Collect` — a collected response is all of its data, or is too large

`collect_incoming` of `src/client/request/response.rs` as a machine: a turn of
the loop that does not end it takes one state to the next (`Collecting.next`).
While no deadline fires the clock has no part in the result, and the loop is
`Lib.gather` at the frames; so its result is read off what they hold together,
however they are cut.
-/
import S3Wire.Lib.History
import S3Wire.Lib.Gather
import S3Wire.Client.Request.Response

namespace S3Wire

/-! ## Frames -/

namespace BodyFrame

/-- A frame before the end and before any error. -/
def Plain : BodyFrame → Prop
  | data _ => True
  | trailers => True
  | error => False
  | ended => False

/-- The frame as a piece of the body: the trailers hold no data. -/
def piece : BodyFrame → Lib.Piece UInt8 S3Error
  | data bytes => .items bytes
  | trailers => .items []
  | error => .failure .transport
  | ended => .finish

variable {frame : BodyFrame}

theorem piece_isItems : frame.piece.IsItems ↔ frame.Plain := by
  cases frame <;> rfl

theorem piece_eq_finish (h : frame.piece = .finish) : frame = .ended := by
  cases frame <;> first | rfl | cases h

theorem piece_eq_failure {e : S3Error} (h : frame.piece = .failure e) :
    e = .transport := by
  cases frame with
  | error =>
      cases h
      rfl
  | data _ => cases h
  | trailers => cases h
  | ended => cases h

end BodyFrame

/-- The data of the frames, joined. -/
def dataOf (frames : List BodyFrame) : Bytes :=
  Lib.takenAll (frames.map BodyFrame.piece)

/-! ## The loop -/

/-- The loop between two turns. -/
structure Collecting where
  output : Bytes
  idleDeadline : Instant
  clock : Instant

namespace Collecting

/-- Nothing is collected, and the idle timer is set. -/
def start (idle : Duration) (clock : Instant) : Collecting :=
  ⟨[], clock + idle, clock⟩

/-- No deadline fires in the turn. -/
def Prompt (deadline : Instant) (state : Collecting) (turn : FrameTurn) :
    Prop :=
  state.clock + turn.beforeDeadline < deadline ∧
    state.clock + turn.beforeDeadline + turn.beforeIdle < state.idleDeadline ∧
      turn.frame.isSome

instance (deadline : Instant) (state : Collecting) (turn : FrameTurn) :
    Decidable (state.Prompt deadline turn) :=
  inferInstanceAs (Decidable (_ ∧ _ ∧ _))

/-- The state after a turn, where the loop goes on. -/
def next (maximum : Nat) (idle : Duration) (deadline : Instant)
    (state : Collecting) (turn : FrameTurn) :
    Option Collecting :=
  if state.Prompt deadline turn then
    let clock :=
      state.clock + turn.beforeDeadline + turn.beforeIdle + turn.waiting
    match turn.frame with
    | some .trailers => some { state with clock := clock }
    | some (.data bytes) =>
        if bytes.isEmpty then some { state with clock := clock }
        else if 2 ^ 64 ≤ state.output.length + bytes.length then none
        else if maximum < state.output.length + bytes.length then none
        else some
          ⟨state.output ++ bytes, clock + turn.afterData + idle,
            clock + turn.afterData⟩
    | _ => none
  else none

/-- `collectFrames` from a state. -/
def run (maximum : Nat) (idle : Duration) (deadline : Instant)
    (turns : List FrameTurn) (state : Collecting) :
    Option (Except S3Error Bytes × Instant) :=
  collectFrames maximum idle deadline turns state.output state.idleDeadline
    state.clock

variable {maximum : Nat} {idle : Duration} {deadline : Instant}
  {state state' : Collecting} {turn : FrameTurn}

theorem run_prompt (hprompt : state.Prompt deadline turn)
    {rest : List FrameTurn} :
    run maximum idle deadline (turn :: rest) state =
      let clock :=
  state.clock + turn.beforeDeadline + turn.beforeIdle + turn.waiting
      match turn.frame with
      | none => none
      | some .ended => some (.ok state.output, clock)
      | some .error => some (.error S3Error.transport, clock)
      | some .trailers =>
          run maximum idle deadline rest { state with clock := clock }
      | some (.data bytes) =>
          if bytes.isEmpty then
            run maximum idle deadline rest { state with clock := clock }
          else if 2 ^ 64 ≤ state.output.length + bytes.length then
            some (.error (oversizedResponse maximum), clock)
          else if maximum < state.output.length + bytes.length then
            some (.error (oversizedResponse maximum), clock)
          else run maximum idle deadline rest
            ⟨state.output ++ bytes, clock + turn.afterData + idle,
                clock + turn.afterData⟩ := by
  obtain ⟨hdeadline, hidle, hframe⟩ := hprompt
  obtain ⟨frame, hframe⟩ := Option.isSome_iff_exists.mp hframe
  rw [run, collectFrames]
  dsimp only
  rw [if_neg (Nat.not_le.mpr hdeadline), if_neg (Nat.not_le.mpr hidle), hframe]
  cases frame <;> rfl

/-- A turn in which a deadline fires ends the loop with a timeout, if at all. -/
theorem run_late (hlate : ¬ state.Prompt deadline turn) : ∃ result,
    (∀ rest, run maximum idle deadline (turn :: rest) state = result) ∧
      ∀ answer after, result = some (answer, after) →
      answer = .error operationTimeout ∨ answer = .error idleTimeout := by
  by_cases hdeadline : deadline ≤ state.clock + turn.beforeDeadline
  · refine ⟨some (.error operationTimeout, state.clock + turn.beforeDeadline),
      ?_, ?_⟩
    · intro rest
      rw [run, collectFrames]
      exact if_pos hdeadline
    · intro answer after h
      cases h
      exact .inl rfl
  by_cases hidle : state.idleDeadline ≤
    state.clock + turn.beforeDeadline + turn.beforeIdle
  · refine ⟨some
      (.error idleTimeout, state.clock + turn.beforeDeadline + turn.beforeIdle),
        ?_, ?_⟩
    · intro rest
      rw [run, collectFrames]
      dsimp only
      rw [if_neg hdeadline, if_pos hidle]
    · intro answer after h
      cases h
      exact .inr rfl
  have hframe : turn.frame = none := by
    rw [← Option.not_isSome_iff_eq_none]
    intro hframe
    exact hlate ⟨Nat.lt_of_not_le hdeadline, Nat.lt_of_not_le hidle, hframe⟩
  refine ⟨run maximum idle deadline [turn] state, ?_, ?_⟩
  · intro rest
    rw [run, run, collectFrames, collectFrames, hframe]
  · intro answer after h
    rw [run, collectFrames] at h
    dsimp only at h
    rw [if_neg hdeadline, if_neg hidle, hframe] at h
    dsimp only at h
    split_ifs at h
    · cases h
      exact .inl rfl
    · cases h
      exact .inr rfl

/-- The loop goes on from the next state, or it has ended whatever is to
come. -/
theorem run_cons (rest : List FrameTurn) :
    run maximum idle deadline (turn :: rest) state =
    match state.next maximum idle deadline turn with
    | some state' => run maximum idle deadline rest state'
    | none => run maximum idle deadline [turn] state := by
  by_cases hprompt : state.Prompt deadline turn
  · rw [run_prompt hprompt, run_prompt hprompt, next, if_pos hprompt]
    cases turn.frame with
    | none => rfl
    | some frame =>
        cases frame with
        | data bytes =>
            dsimp only
            split_ifs <;> rfl
        | trailers => rfl
        | error => rfl
        | ended => rfl
  · obtain ⟨result, hresult, -⟩ := run_late hprompt
    rw [next, if_neg hprompt]
    exact (hresult rest).trans (hresult []).symm

theorem run_append :
    ∀ {consumed : List FrameTurn} {state state' : Collecting} (rest : List FrameTurn),
    Lib.exec (next maximum idle deadline) state consumed = some state' →
    run maximum idle deadline (consumed ++ rest) state =
      run maximum idle deadline rest state'
  | [], _, _, _, h => by
      cases h
      rfl
  | turn :: consumed, state, state', rest, h => by
      obtain ⟨m, hm, h⟩ := Lib.exec_cons h
      rw [List.cons_append, run_cons, hm]
      exact run_append rest h

/-! ### What is held -/

/-- A step holds the data of its frame as well, and no more than the maximum. -/
theorem next_some (h : state.next maximum idle deadline turn = some state') :
    ∃ frame, turn.frame = some frame ∧ frame.Plain ∧
    state'.output = state.output ++ frame.piece.taken ∧
      (state.output.length ≤ maximum → state'.output.length ≤ maximum) := by
  rw [next] at h
  split at h
  · dsimp only at h
    split at h
    · next hframe =>
        cases h
        exact ⟨_, hframe, trivial, (List.append_nil _).symm, id⟩
    · next bytes hframe =>
        split at h
        · next hempty =>
            cases h
            rw [List.isEmpty_iff.mp hempty] at hframe
            exact ⟨_, hframe, trivial, (List.append_nil _).symm, id⟩
        split at h
        · cases h
        split at h
        · cases h
        · next hfits =>
            cases h
            refine ⟨_, hframe, trivial, rfl, fun _ => ?_⟩
            rw [List.length_append]
            exact Nat.le_of_not_lt hfits
    · cases h
  · cases h

/-- What the loop holds is the data of the frames so far, within the maximum. -/
theorem exec_output : ∀ {consumed : List FrameTurn} {state state' : Collecting},
    Lib.exec (next maximum idle deadline) state consumed = some state' →
    state'.output =
      state.output ++ dataOf (consumed.filterMap FrameTurn.frame) ∧
      (state.output.length ≤ maximum → state'.output.length ≤ maximum)
  | [], _, _, h => by
      cases h
      exact ⟨(List.append_nil _).symm, id⟩
  | turn :: consumed, state, state', h => by
      obtain ⟨m, hm, h⟩ := Lib.exec_cons h
      obtain ⟨frame, hframe, -, hout, hheld⟩ := next_some hm
      obtain ⟨hrest, hbound⟩ := exec_output h
      refine ⟨?_, fun hle => hbound (hheld hle)⟩
      rw [hrest, hout, List.filterMap_cons_some hframe, dataOf, dataOf,
        List.map_cons, Lib.takenAll, Lib.takenAll,
        List.flatMap_cons, List.append_assoc]

/-! ### The result -/

theorem run_eq_gather (hmaximum : maximum < 2 ^ 64) :
    ∀ {turns : List FrameTurn} {state : Collecting},
    Lib.Along (next maximum idle deadline) (Prompt deadline) state turns →
    state.output.length ≤ maximum →
    (run maximum idle deadline turns state).map Prod.fst =
      Lib.gather maximum (oversizedResponse maximum) state.output
        ((turns.filterMap FrameTurn.frame).map BodyFrame.piece)
  | [], _, _, _ => rfl
  | turn :: rest, state, ⟨hprompt, hrest⟩, hheld => by
      rw [run_prompt hprompt]
      rw [next, if_pos hprompt] at hrest
      cases hframe : turn.frame with
      | none =>
          rw [Prompt, hframe] at hprompt
          cases hprompt.2.2
      | some frame =>
          rw [hframe] at hrest
          rw [List.filterMap_cons_some hframe, List.map_cons]
          cases frame with
          | ended => rfl
          | error => rfl
          | trailers =>
              have hfits : ¬ maximum < state.output.length + 0 :=
                Nat.not_lt.mpr hheld
              rw [BodyFrame.piece, Lib.gather, List.length_nil, if_neg hfits,
                List.append_nil]
              exact run_eq_gather hmaximum hrest hheld
          | data bytes =>
              rw [BodyFrame.piece, Lib.gather]
              dsimp only at hrest ⊢
              by_cases hempty : bytes.isEmpty
              · have hfits : ¬ maximum < state.output.length + 0 :=
                  Nat.not_lt.mpr hheld
                rw [if_pos hempty] at hrest ⊢
                rw [List.isEmpty_iff.mp hempty, List.length_nil, if_neg hfits,
                  List.append_nil]
                exact run_eq_gather hmaximum hrest hheld
              · rw [if_neg hempty] at hrest ⊢
                by_cases hfits : maximum < state.output.length + bytes.length
                · rw [if_pos hfits, if_pos hfits]
                  split <;> rfl
                · have hsum :
                    ¬ 2 ^ 64 ≤ state.output.length + bytes.length := by omega
                  rw [if_neg hsum, if_neg hfits] at hrest ⊢
                  rw [if_neg hfits]
                  refine run_eq_gather hmaximum hrest ?_
                  rw [List.length_append]
                  exact Nat.le_of_not_lt hfits

theorem along_prompt :
    ∀ {turns : List FrameTurn} {state : Collecting}
      {answer : Except S3Error Bytes} {after : Instant},
    run maximum idle deadline turns state = some (answer, after) →
    answer ≠ .error operationTimeout →
    answer ≠ .error idleTimeout →
    Lib.Along (next maximum idle deadline) (Prompt deadline) state turns
  | [], _, _, _, _, _, _ => trivial
  | turn :: rest, state, answer, after, h, hoperation, hidle => by
      by_cases hprompt : state.Prompt deadline turn
      · refine ⟨hprompt, ?_⟩
        rw [run_cons] at h
        cases hnext : state.next maximum idle deadline turn with
        | none => trivial
        | some state' =>
            rw [hnext] at h
            exact along_prompt h hoperation hidle
      · obtain ⟨result, hresult, htimeout⟩ := run_late hprompt
        rw [hresult] at h
        rcases htimeout answer after h with heq | heq
        · exact absurd heq hoperation
        · exact absurd heq hidle

end Collecting

/-! ## What a response is collected to -/

section Spec

variable {maximum : Nat} {frames before before' : List BodyFrame}

/-- What frames are worth: all of their data before the end, or too much of it
before anything else. -/
structure Collects (maximum : Nat) (frames : List BodyFrame)
    (result : Option (Except S3Error Bytes)) : Prop where
  all : ∀ out, result = some (.ok out) ↔
    ∃ before rest, frames = before ++ .ended :: rest ∧
    (∀ frame ∈ before, frame.Plain) ∧ (dataOf before).length ≤ maximum ∧
      out = dataOf before
  oversized : result = some (.error (oversizedResponse maximum)) ↔
    ∃ before rest, frames = before ++ rest ∧
    (∀ frame ∈ before, frame.Plain) ∧ maximum < (dataOf before).length

theorem isItems_map (hbefore : ∀ frame ∈ before, frame.Plain) :
    ∀ p ∈ before.map BodyFrame.piece, p.IsItems := by
  intro p hp
  obtain ⟨frame, hframe, rfl⟩ := List.mem_map.mp hp
  exact BodyFrame.piece_isItems.mpr (hbefore frame hframe)

theorem plain_of_map (h : ∀ p ∈ before.map BodyFrame.piece, p.IsItems) :
    ∀ frame ∈ before, frame.Plain := by
  intro frame hframe
  exact BodyFrame.piece_isItems.mp (h _ (List.mem_map_of_mem hframe))

theorem collects_gather : Collects maximum frames
    (Lib.gather maximum (oversizedResponse maximum) []
      (frames.map BodyFrame.piece)) where
  all out := by
    rw [Lib.gather_eq_ok]
    constructor
    · rintro ⟨pieces, rest, heq, hitems, hle, rfl⟩
      obtain ⟨before, tail, rfl, rfl, htail⟩ := List.map_eq_append_iff.mp heq
      obtain ⟨frame, rest, rfl, hfinish, rfl⟩ := List.map_eq_cons_iff.mp htail
      rw [BodyFrame.piece_eq_finish hfinish]
      exact ⟨before, rest, rfl, plain_of_map hitems, hle, rfl⟩
    · rintro ⟨before, rest, rfl, hplain, hle, rfl⟩
      exact ⟨_, rest.map BodyFrame.piece, List.map_append, isItems_map hplain,
        hle, rfl⟩
  oversized := by
    have hown : ∀ e, .failure e ∈ frames.map BodyFrame.piece →
        e ≠ oversizedResponse maximum := by
      intro e he heq
      obtain ⟨frame, -, hframe⟩ := List.mem_map.mp he
      rw [BodyFrame.piece_eq_failure hframe] at heq
      cases congrArg S3Error.category heq
    rw [Lib.gather_eq_tooMuch hown]
    constructor
    · rintro ⟨pieces, rest, heq, hitems, hlt⟩
      obtain ⟨before, tail, rfl, rfl, rfl⟩ := List.map_eq_append_iff.mp heq
      exact ⟨before, tail, rfl, plain_of_map hitems, hlt⟩
    · rintro ⟨before, rest, rfl, hplain, hlt⟩
      exact ⟨_, rest.map BodyFrame.piece, List.map_append, isItems_map hplain,
        hlt⟩

/-- No deadline fires in the turns of `collect_incoming`. -/
def OnTime (maximum : Nat) (idle : Duration) (deadline clock : Instant)
    (turns : List FrameTurn) : Prop :=
  Lib.Along (Collecting.next maximum idle deadline) (Collecting.Prompt deadline)
    (.start idle clock) turns

instance (maximum : Nat) (idle : Duration) (deadline clock : Instant)
    (turns : List FrameTurn) :
    Decidable (OnTime maximum idle deadline clock turns) :=
  inferInstanceAs (Decidable (Lib.Along _ _ _ _))

/-- The result of `collect_incoming`, without the clock after it. -/
def collected (maximum : Nat) (idle : Duration) (deadline clock : Instant)
    (turns : List FrameTurn) :
    Option (Except S3Error Bytes) :=
  (collectFrames maximum idle deadline turns [] (clock + idle) clock).map
    Prod.fst

theorem collected_eq_gather (hmaximum : maximum < 2 ^ 64) {idle : Duration}
    {deadline clock : Instant} {turns : List FrameTurn}
    (h : OnTime maximum idle deadline clock turns) :
    collected maximum idle deadline clock turns =
      Lib.gather maximum (oversizedResponse maximum) []
        ((turns.filterMap FrameTurn.frame).map BodyFrame.piece) :=
  Collecting.run_eq_gather hmaximum h (Nat.zero_le _)

/-- Within every turn the loop holds the data so far and at most the maximum of
it, and goes on as it would have from there; with no deadline the result is that
of the frames, and the same for the same data; a response is refused before its
body is read only for what it declares. -/
theorem collectResponse_spec (hmaximum : maximum < 2 ^ 64) (idle : Duration)
    (deadline clock : Instant) :
    (∀ consumed state,
      Lib.exec (Collecting.next maximum idle deadline)
        (.start idle clock) consumed = some state →
        state.output = dataOf (consumed.filterMap FrameTurn.frame) ∧
        state.output.length ≤ maximum ∧
        ∀ rest, collectFrames maximum idle deadline (consumed ++ rest) []
        (clock + idle) clock =
          collectFrames maximum idle deadline rest state.output
            state.idleDeadline state.clock) ∧
    (∀ turns, OnTime maximum idle deadline clock turns →
      Collects maximum (turns.filterMap FrameTurn.frame)
        (collected maximum idle deadline clock turns)) ∧
    (∀ turns answer, collected maximum idle deadline clock turns = some answer →
      answer ≠ .error operationTimeout → answer ≠ .error idleTimeout →
      OnTime maximum idle deadline clock turns) ∧
    (∀ turns turns' before before' rest rest',
      OnTime maximum idle deadline clock turns →
      OnTime maximum idle deadline clock turns' →
      turns.filterMap FrameTurn.frame = before ++ .ended :: rest →
      turns'.filterMap FrameTurn.frame = before' ++ .ended :: rest' →
      (∀ frame ∈ before, frame.Plain) → (∀ frame ∈ before', frame.Plain) →
      dataOf before = dataOf before' →
      collected maximum idle deadline clock turns =
        collected maximum idle deadline clock turns') ∧
    ∀ response turns,
      ((∃ upper, response.sizeUpper = some upper ∧ maximum < upper) →
        collectResponse response maximum idle deadline turns clock =
          some (.error (oversizedResponse maximum), clock)) ∧
      ((∀ upper, response.sizeUpper = some upper → upper ≤ maximum) →
        collectResponse response maximum idle deadline turns clock =
          collectFrames maximum idle deadline turns []
          (clock + idle) clock) := by
  refine ⟨?_, ?_, ?_, ?_, ?_⟩
  · intro consumed state h
    obtain ⟨hout, hbound⟩ := Collecting.exec_output h
    exact ⟨hout, hbound (Nat.zero_le _),
      fun rest => Collecting.run_append rest h⟩
  · intro turns htime
    rw [collected_eq_gather hmaximum htime]
    exact collects_gather
  · intro turns answer h hoperation hidle
    obtain ⟨⟨_, after⟩, hrun, rfl⟩ := Option.map_eq_some_iff.mp h
    exact Collecting.along_prompt hrun hoperation hidle
  · intro turns turns' before before' rest rest' htime htime' hframes hframes'
      hplain hplain' hsame
    rw [collected_eq_gather hmaximum htime, collected_eq_gather hmaximum htime',
      hframes, hframes', List.map_append,
      List.map_append]
    exact Lib.gather_congr _ _ (isItems_map hplain) (isItems_map hplain') hsame
  · intro response turns
    refine ⟨?_, ?_⟩
    · rintro ⟨upper, hupper, hlt⟩
      rw [collectResponse, hupper]
      exact if_pos (decide_eq_true hlt)
    · intro hsmall
      rw [collectResponse, if_neg]
      cases hupper : response.sizeUpper with
      | none => exact Bool.false_ne_true
      | some upper =>
          intro hlt
          exact absurd (of_decide_eq_true hlt)
            (Nat.not_lt.mpr (hsmall upper hupper))

/-- Three bytes in two frames, with an empty frame and the trailers between
them. -/
def cutTurns : List FrameTurn :=
  [.data [1, 2], .data [], .trailers, .data [3], .ended].map fun frame =>
    ⟨1, 1, 1, some frame, 1⟩

theorem collectResponse_spec_three_bytes :
    OnTime 3 10 100 0 cutTurns ∧
    collected 3 10 100 0 cutTurns = some (.ok [1, 2, 3]) ∧
      Collects 3 (cutTurns.filterMap FrameTurn.frame)
        (collected 3 10 100 0 cutTurns) := by
  have htime : OnTime 3 10 100 0 cutTurns := by decide
  exact ⟨htime, rfl,
    (collectResponse_spec (by decide) 10 100 0).2.1 cutTurns htime⟩

end Spec

end S3Wire
