/-
# `Lib.Words` — the words of a text, and the text they are joined to

The letters of an arbitrary alphabet are told apart by `gap`: the words of a
text are its longest runs of letters that are no gaps (`words`).  What a text
has between its words does not matter (`words_run`, `Respaced.words_eq`); joined
by a single gap they are a text with the same words (`words_join`), and that
text has no gap at its ends and no two in a row (`spaced_join`).
-/
import S3Wire.Lib.Text

namespace Lib

variable {α : Type*} {gap : α → Bool} {x c : α} {s t u run w : List α}

/-- The non-empty pieces between the gaps. -/
def words (gap : α → Bool) (s : List α) : List (List α) :=
  (s.splitOnP gap).filter fun piece => !piece.isEmpty

/-- A text of gaps. -/
def IsGap (gap : α → Bool) (run : List α) : Prop := ∀ c ∈ run, gap c = true

/-- A word: something, and no gap in it. -/
def IsWord (gap : α → Bool) (w : List α) : Prop :=
  w ≠ [] ∧ ∀ c ∈ w, gap c = false

/-! ## Words between gaps -/

@[simp] theorem words_nil : words gap [] = [] := by
  simp [words, List.splitOnP_nil]

theorem words_append_cons (hc : gap c = true) :
    words gap (s ++ c :: t) = words gap s ++ words gap t := by
  rw [words, List.splitOnP_append_cons s t hc, List.filter_append, words, words]

theorem words_cons (hc : gap c = true) : words gap (c :: t) = words gap t := by
  have h := words_append_cons (s := []) (t := t) hc
  rwa [words_nil, List.nil_append, List.nil_append] at h

theorem words_run (hrun : IsGap gap run) :
    words gap (run ++ t) = words gap t := by
  induction run with
  | nil => rfl
  | cons c run ih =>
      obtain ⟨hc, hrun⟩ := List.forall_mem_cons.mp hrun
      rw [List.cons_append, words_cons hc, ih hrun]

theorem words_append_run (hne : run ≠ []) (hrun : IsGap gap run) :
    words gap (s ++ run ++ t) = words gap s ++ words gap t := by
  obtain ⟨c, run, rfl⟩ := List.exists_cons_of_ne_nil hne
  obtain ⟨hc, hrun⟩ := List.forall_mem_cons.mp hrun
  rw [List.append_assoc, List.cons_append, words_append_cons hc, words_run hrun]

theorem words_append_end (hrun : IsGap gap run) :
    words gap (s ++ run) = words gap s := by
  cases run with
  | nil => rw [List.append_nil]
  | cons c run =>
      have h :=
        words_append_run (s := s) (t := []) (List.cons_ne_nil c run) hrun
      rwa [List.append_nil, words_nil, List.append_nil] at h

theorem words_word (hw : IsWord gap w) : words gap w = [w] := by
  rw [words, List.splitOnP_eq_singleton hw.2]
  simp [hw.1]

theorem not_gap_of_mem_splitOnP : ∀ {s piece : List α}, piece ∈ s.splitOnP gap →
    ∀ c ∈ piece, gap c = false
  | [], piece, h => by
      rw [List.splitOnP_nil, List.mem_singleton] at h
      subst h
      simp
  | a :: s, piece, h => by
      obtain ⟨first, rest, hsplit⟩ :=
        List.exists_cons_of_ne_nil (List.splitOnP_ne_nil gap s)
      have hfirst : ∀ c ∈ first, gap c = false :=
        not_gap_of_mem_splitOnP (s := s) (by simp [hsplit])
      rw [List.splitOnP_cons_eq_if_modifyHead, hsplit, List.modifyHead_cons]
        at h
      split at h
      · rcases List.mem_cons.mp h with rfl | h
        · simp
        · exact not_gap_of_mem_splitOnP (s := s) (by rw [hsplit]; exact h)
      · next ha =>
          rcases List.mem_cons.mp h with rfl | h
          · exact List.forall_mem_cons.mpr ⟨by simpa using ha, hfirst⟩
          · exact not_gap_of_mem_splitOnP (s := s)
              (by rw [hsplit]; exact List.mem_cons_of_mem _ h)

theorem isWord_of_mem (h : w ∈ words gap s) : IsWord gap w := by
  obtain ⟨hpiece, hne⟩ := List.mem_filter.mp h
  exact ⟨by simpa using hne, not_gap_of_mem_splitOnP hpiece⟩

theorem flatten_words (s : List α) : (words gap s).flatten = s.filter fun c =>
    !gap c := by
  have hpieces : (s.splitOnP gap).flatten = s.filter fun c => !gap c := by
    induction s with
    | nil => rfl
    | cons a s ih =>
        obtain ⟨first, rest, hsplit⟩ :=
          List.exists_cons_of_ne_nil (List.splitOnP_ne_nil gap s)
        rw [hsplit, List.flatten_cons] at ih
        rw [List.splitOnP_cons_eq_if_modifyHead, hsplit, List.modifyHead_cons]
        split
        · next ha => simp [ha, ih]
        · next ha => simp [ha, ih]
  rw [← hpieces, words, List.flatten_filter_not_isEmpty]

theorem mem_of_mem_words (hw : w ∈ words gap s) (hc : c ∈ w) : c ∈ s := by
  have hflat : c ∈ (words gap s).flatten := List.mem_flatten.mpr ⟨w, hw, hc⟩
  rw [flatten_words] at hflat
  exact List.mem_of_mem_filter hflat

theorem words_eq_nil_iff : words gap s = [] ↔ IsGap gap s := by
  constructor
  · intro h c hc
    have hletters := @flatten_words _ gap s
    rw [h, List.flatten_nil, eq_comm, List.filter_eq_nil_iff] at hletters
    simpa using hletters c hc
  · intro h
    have hrun := words_run (t := []) h
    rwa [List.append_nil, words_nil] at hrun

/-! ## Joining words -/

theorem words_join (hx : gap x = true) :
    ∀ {ws : List (List α)}, (∀ w ∈ ws, IsWord gap w) →
    words gap ([x].intercalate ws) = ws
  | [], _ => by simp
  | [w], h => by
      rw [List.intercalate_singleton]
      exact words_word (h w (List.mem_singleton_self w))
  | w :: v :: ws, h => by
      obtain ⟨hw, hrest⟩ := List.forall_mem_cons.mp h
      rw [List.intercalate_cons_cons, List.append_assoc, List.singleton_append,
        words_append_cons hx,
        words_word hw, words_join hx hrest, List.singleton_append]

/-- Two texts with the same words: what is between the words of one is replaced,
and what is at its ends. -/
inductive Respaced (gap : α → Bool) : List α → List α → Prop where
  | refl (s : List α) : Respaced gap s s
  | between (s t : List α) {run run' : List α} : run ≠ [] → run' ≠ [] →
      IsGap gap run → IsGap gap run' →
      Respaced gap (s ++ run ++ t) (s ++ run' ++ t)
  | front (t : List α) {run run' : List α} : IsGap gap run → IsGap gap run' →
      Respaced gap (run ++ t) (run' ++ t)
  | back (s : List α) {run run' : List α} : IsGap gap run → IsGap gap run' →
      Respaced gap (s ++ run) (s ++ run')
  | trans {s t u : List α} : Respaced gap s t → Respaced gap t u →
      Respaced gap s u

theorem Respaced.words_eq (h : Respaced gap s t) :
    words gap s = words gap t := by
  induction h with
  | refl s => rfl
  | between s t hne hne' hrun hrun' =>
      rw [words_append_run hne hrun, words_append_run hne' hrun']
  | front t hrun hrun' => rw [words_run hrun, words_run hrun']
  | back s hrun hrun' => rw [words_append_end hrun, words_append_end hrun']
  | trans _ _ ih ih' => exact ih.trans ih'

theorem Respaced.letters (h : Respaced gap s t) (hc : gap c = false) :
    c ∈ s ↔ c ∈ t := by
  have hnot : ∀ {run : List α}, IsGap gap run → c ∉ run := by
    intro run hrun hmem
    rw [hrun c hmem] at hc
    cases hc
  induction h with
  | refl s => rfl
  | between s t _ _ hrun hrun' => simp [hnot hrun, hnot hrun']
  | front t hrun hrun' => simp [hnot hrun, hnot hrun']
  | back s hrun hrun' => simp [hnot hrun, hnot hrun']
  | trans _ _ ih ih' => exact ih.trans ih'

/-- No `x` at the ends and no two in a row. -/
structure Spaced (x : α) (s : List α) : Prop where
  first : s.head? ≠ some x
  last : s.getLast? ≠ some x
  single : ¬[x, x] <:+: s

theorem spaced_join [DecidableEq α] {ws : List (List α)}
    (h : ∀ w ∈ ws, w ≠ [] ∧ x ∉ w) :
    Spaced x ([x].intercalate ws) := by
  by_cases hws : ws = []
  · subst hws
    exact ⟨by simp, by simp, by simp⟩
  have hsplit : ([x].intercalate ws).splitOn x = ws :=
    List.splitOn_intercalate x (fun w hw => (h w hw).2) hws
  have hempty : [] ∉ ([x].intercalate ws).splitOn x := by
    rw [hsplit]
    exact fun hmem => (h [] hmem).1 rfl
  -- each of the three would leave an empty field
  have hcut :
      ∀ a b : List α, (a ++ x :: b).splitOn x = a.splitOn x ++ b.splitOn x :=
        fun a b => by
    rw [List.splitOn_eq_splitOnP, List.splitOnP_append_cons a b (by simp)]
    rfl
  have hnil : ([] : List α).splitOn x = [[]] := by
    simp [List.splitOn_eq_splitOnP, List.splitOnP_nil]
  refine ⟨?_, ?_, ?_⟩
  · intro hhead
    obtain ⟨b, hb⟩ := List.head?_eq_some_iff.mp hhead
    rw [hb] at hempty
    have hfirst := hcut [] b
    rw [List.nil_append] at hfirst
    simp [hfirst, hnil] at hempty
  · intro hlast
    obtain ⟨a, ha⟩ := List.getLast?_eq_some_iff.mp hlast
    rw [ha, hcut a [], hnil] at hempty
    simp at hempty
  · rintro ⟨a, b, hab⟩
    have hdouble : a ++ [x, x] ++ b = a ++ x :: ([] ++ x :: b) := by simp
    rw [← hab, hdouble, hcut, hcut, hnil] at hempty
    simp at hempty

/-! ## Parts of a text -/

theorem exists_first_word (gap : α → Bool) :
    ∀ s : List α, ∃ b, (∀ c ∈ b, gap c = false) ∧
    (s = b ∨ ∃ g r, gap g = true ∧ s = b ++ g :: r)
  | [] => ⟨[], by simp, .inl rfl⟩
  | a :: s => by
      cases ha : gap a with
      | true => exact ⟨[], by simp, .inr ⟨a, s, ha, rfl⟩⟩
      | false =>
          obtain ⟨b, hb, hs⟩ := exists_first_word gap s
          refine ⟨a :: b, List.forall_mem_cons.mpr ⟨ha, hb⟩, ?_⟩
          rcases hs with rfl | ⟨g, r, hg, rfl⟩
          · exact .inl rfl
          · exact .inr ⟨g, r, hg, rfl⟩

theorem exists_last_word (gap : α → Bool) (s : List α) :
    ∃ b, (∀ c ∈ b, gap c = false) ∧
    (s = b ∨ ∃ r g, gap g = true ∧ s = r ++ g :: b) := by
  obtain ⟨b, hb, hs⟩ := exists_first_word gap s.reverse
  refine ⟨b.reverse, fun c hc => hb c (List.mem_reverse.mp hc), ?_⟩
  rcases hs with hs | ⟨g, r, hg, hs⟩
  · exact .inl (List.reverse_eq_iff.mp hs)
  · refine .inr ⟨r.reverse, g, hg, ?_⟩
    rw [List.reverse_eq_iff.mp hs]
    simp

theorem infix_of_mem_words {s w : List α} (hw : w ∈ words gap s) :
    w <:+: s := by
  obtain ⟨b, hb, hs⟩ := exists_first_word gap s
  have hfirst : w ∈ words gap b → w <:+: b := by
    intro hmem
    by_cases hne : b = []
    · subst hne
      rw [words_nil] at hmem
      cases hmem
    · rw [words_word ⟨hne, hb⟩, List.mem_singleton] at hmem
      rw [hmem]
  rcases hs with rfl | ⟨g, r, hg, rfl⟩
  · exact hfirst hw
  · rw [words_append_cons hg, List.mem_append] at hw
    rcases hw with hw | hw
    · exact List.infix_append_of_infix_left (hfirst hw)
    · exact List.infix_append_of_infix_right
        (List.infix_cons (infix_of_mem_words hw))
  termination_by s.length

/-- What has no gap in it stands in a text just where it stands in one of its
words. -/
theorem infix_iff_words {part : List α} (hne : part ≠ [])
    (hpart : ∀ c ∈ part, gap c = false) :
    part <:+: s ↔ ∃ w ∈ words gap s, part <:+: w := by
  constructor
  · rintro ⟨a, b, rfl⟩
    obtain ⟨a', ha', ha⟩ := exists_last_word gap a
    obtain ⟨b', hb', hb⟩ := exists_first_word gap b
    have hword : IsWord gap (a' ++ part ++ b') := by
      refine ⟨by simp [hne], fun c hc => ?_⟩
      rcases List.mem_append.mp hc with hc | hc
      · rcases List.mem_append.mp hc with hc | hc
        · exact ha' c hc
        · exact hpart c hc
      · exact hb' c hc
    have hend : a' ++ part ++ b' ∈ words gap (a' ++ part ++ b) := by
      rcases hb with rfl | ⟨g, r, hg, rfl⟩
      · rw [words_word hword]
        exact List.mem_singleton_self _
      · rw [← List.append_assoc, words_append_cons hg, words_word hword]
        exact List.mem_append_left _ (List.mem_singleton_self _)
    refine ⟨a' ++ part ++ b', ?_, List.infix_append _ _ _⟩
    rcases ha with rfl | ⟨r, g, hg, rfl⟩
    · exact hend
    · rw [List.append_assoc, List.append_assoc, List.cons_append,
        words_append_cons hg, ← List.append_assoc]
      exact List.mem_append_right _ hend
  · rintro ⟨w, hw, hinfix⟩
    exact hinfix.trans (infix_of_mem_words hw)

theorem infix_iff_of_words_eq {part : List α} (h : words gap s = words gap t)
    (hne : part ≠ []) (hpart : ∀ c ∈ part, gap c = false) : part <:+: s ↔
    part <:+: t := by
  rw [infix_iff_words hne hpart, infix_iff_words hne hpart, h]

theorem length_join_words (x : α) (s : List α) :
    ([x].intercalate (words gap s)).length ≤ s.length := by
  have hjoin : ∀ u v : List (List α),
      ([x].intercalate (u ++ v)).length ≤
          ([x].intercalate u).length + 1 + ([x].intercalate v).length := by
    intro u v
    induction u with
    | nil => simp
    | cons w u ih =>
        by_cases hu : u ++ v = []
        · obtain ⟨rfl, rfl⟩ := List.append_eq_nil_iff.mp hu
          simp
        · rw [List.cons_append, List.intercalate_cons_of_ne_nil hu]
          cases u with
          | nil =>
              simp only [List.nil_append, List.intercalate_singleton,
                List.length_append, List.length_singleton]
              omega
          | cons w' u =>
              rw [List.intercalate_cons_of_ne_nil (List.cons_ne_nil w' u)]
              simp only [List.length_append, List.length_singleton] at ih ⊢
              omega
  obtain ⟨b, hb, hs⟩ := exists_first_word gap s
  have hfirst : ([x].intercalate (words gap b)).length ≤ b.length := by
    by_cases hne : b = []
    · subst hne
      simp
    · rw [words_word ⟨hne, hb⟩, List.intercalate_singleton]
  rcases hs with rfl | ⟨g, r, hg, rfl⟩
  · exact hfirst
  · have hrest := length_join_words x r
    have hsum := hjoin (words gap b) (words gap r)
    rw [words_append_cons hg, List.length_append, List.length_cons]
    omega
  termination_by s.length

end Lib
