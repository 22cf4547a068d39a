/-
# `Lib.Cursor` — a listing of a service that goes through a list

`Lib.Paging` says what a listing is whatever the service answers.  Here the
service goes through a list: to each request it answers with the next batch of
what is left there, and a truncated page carries a token from which exactly the
rest is left (`Goes`).  Then a listing that may ask often enough is all that was
left at the start, in order, each item once (`follow_goes`), and one that may
not ends at its own bound and nowhere else.

A service that keeps its items in the order of a key, and whose token is the key
of the last item it gave out, goes through its list, however large its batches
are (`Goes.of_cut`).
-/
import S3Wire.Lib.Paging

namespace Lib

namespace Pager

section Goes

variable {ρ π τ ε α : Type*} (pager : Pager ρ π τ ε) (page : ℕ → ρ → Except ε π)

/-- What is left for a request, and what a page holds of it.  `Legal` are the
requests that the service knows how to answer. -/
structure Goes (left : ρ → List α) (Holds : π → List α → Prop)
    (Legal : ρ → Prop) : Prop where
  answers : ∀ i request, Legal request → ∃ answer, page i request = .ok answer ∧
    ((pager.truncated answer = false ∧ Holds answer (left request)) ∨
      ∃ token batch, pager.truncated answer = true ∧
        pager.next answer = some token ∧
        pager.advances request token = true ∧
          Legal (pager.resume request token) ∧ Holds answer batch ∧
        batch ≠ [] ∧ left (pager.resume request token) ≠ [] ∧
        left request = batch ++ left (pager.resume request token))
  /-- The token says what is left. -/
  same : ∀ request request', Legal request → Legal request' →
    ∀ token, pager.token request = some token →
    pager.token request' = some token → left request = left request'

variable {pager page} {left : ρ → List α} {Holds : π → List α → Prop}
  {Legal : ρ → Prop}

/-- The pages hold the items, batch by batch. -/
def HoldAll (Holds : π → List α → Prop) (pages : List π) (items : List α) :
    Prop :=
  ∃ batches, List.Forall₂ Holds pages batches ∧ batches.flatten = items

theorem HoldAll.flatten_map {β : Type*} {pages : List π} {items : List α}
    (h : HoldAll Holds pages items) (read : π → List β) (pick : α → Option β)
    (hread : ∀ answer batch, Holds answer batch →
      read answer = batch.filterMap pick) :
    (pages.map read).flatten = items.filterMap pick := by
  obtain ⟨batches, hall, rfl⟩ := h
  induction hall with
  | nil => rfl
  | cons hholds _ ih =>
      rw [List.map_cons, List.flatten_cons, List.flatten_cons,
        List.filterMap_append, hread _ _ hholds, ih]

/-- From anywhere in a listing on.  More was left for every request whose token
was seen, so no token comes again. -/
theorem loop_goes [DecidableEq τ] (h : pager.Goes page left Holds Legal)
    (budget : ℕ) {seen : List τ} {request : ρ} {past : List (ρ × π)}
    (hlegal : Legal request)
    (hseen : ∀ token ∈ seen, ∃ earlier, Legal earlier ∧
      pager.token earlier = some token ∧
      (left request).length ≤ (left earlier).length) :
    (∃ pages, (pager.loop page budget seen request past).result =
      .ok (past.map Prod.snd ++ pages) ∧
      HoldAll Holds pages (left request)) ∨
    ((pager.loop page budget seen request past).result = .error pager.limit ∧
      (budget = 0 ∨ budget < (left request).length)) := by
  induction budget generalizing seen request past with
  | zero => exact Or.inr ⟨rfl, Or.inl rfl⟩
  | succ budget ih =>
      obtain ⟨answer, hanswer, hpage⟩ := h.answers past.length request hlegal
      rw [loop, hanswer]
      dsimp only
      rcases hpage with ⟨hlast, hholds⟩ |
        ⟨token, batch, htruncated, hnext, hadvances, hresumes, hholds, hbatch,
        hmore, hleft⟩
      · rw [if_pos hlast]
        refine Or.inl
          ⟨[answer], ?_, [left request], .cons hholds .nil,
            List.flatten_singleton⟩
        show Except.ok ((past ++ [(request, answer)]).map Prod.snd) = _
        rw [List.map_append]
        rfl
      · have hlength :
            (left request).length =
                batch.length + (left (pager.resume request token)).length := by
          rw [hleft, List.length_append]
        have hbatch := List.length_pos_iff.mpr hbatch
        have hmore := List.length_pos_iff.mpr hmore
        have hfresh : token ∉ seen := by
          intro hmem
          obtain ⟨earlier, hearlier, htoken, hle⟩ := hseen token hmem
          rw [h.same _ _ hearlier hresumes token htoken
            (pager.token_resume request token)] at hle
          omega
        rw [if_neg (by rw [htruncated]; exact Bool.false_ne_true.symm), hnext]
        dsimp only
        rw [if_neg
          (by rw [hadvances, not_or]; exact ⟨Bool.false_ne_true.symm, hfresh⟩)]
        have hseen' : ∀ token' ∈ token :: seen, ∃ earlier, Legal earlier ∧
            pager.token earlier = some token' ∧
            (left (pager.resume request token)).length ≤
                (left earlier).length := by
          intro token' htoken'
          rcases List.mem_cons.mp htoken' with rfl | htoken'
          · exact ⟨_, hresumes, pager.token_resume request token', le_rfl⟩
          · obtain ⟨earlier, hearlier, htoken, hle⟩ := hseen token' htoken'
            exact ⟨earlier, hearlier, htoken, by omega⟩
        rcases ih hresumes hseen' with ⟨pages, hresult, batches, hall,
          hflatten⟩ | ⟨hresult, hbound⟩
        · refine Or.inl
            ⟨answer :: pages, ?_, batch :: batches, .cons hholds hall, ?_⟩
          · rw [hresult, List.map_append, List.append_assoc]
            rfl
          · rw [List.flatten_cons, hflatten, hleft]
        · refine Or.inr ⟨hresult, Or.inr ?_⟩
          omega

/-- **A listing of a service that goes through a list** is all that was left, in
order, or ends at its bound, and only when there is more than so many items. -/
theorem follow_goes [DecidableEq τ] (h : pager.Goes page left Holds Legal)
    (maximum : ℕ) {start : ρ} (hstart : Legal start) :
    (∃ pages, (pager.follow page maximum start).result = .ok pages ∧
      HoldAll Holds pages (left start)) ∨
      ((pager.follow page maximum start).result = .error pager.limit ∧
        (maximum = 0 ∨ maximum < (left start).length)) := by
  refine loop_goes h maximum hstart ?_
  intro token htoken
  exact ⟨start, hstart, Option.mem_toList.mp htoken, le_rfl⟩

end Goes

end Pager

/-! ## Going on after a key -/

section Cut

variable {α κ : Type*} [LinearOrder κ] (key : α → κ)

/-- What comes after a key, or everything. -/
def after (previous : Option κ) (l : List α) : List α :=
  l.filter fun x => previous.all fun k => decide (k < key x)

variable {key} {l : List α} {previous : Option κ}

theorem mem_after {x : α} : x ∈ after key previous l ↔ x ∈ l ∧
    ∀ k ∈ previous, k < key x := by
  rw [after, List.mem_filter]
  refine and_congr_right fun _ => ?_
  cases previous with
  | none => exact iff_of_true rfl nofun
  | some k =>
      rw [Option.all_some, decide_eq_true_eq]
      constructor
      · intro h k' hk'
        cases hk'
        exact h
      · exact fun h => h k rfl

/-- **After the last item that was given out comes what was not given out.** -/
theorem after_last (hs : KeySorted key l) {n : ℕ} {last : α}
    (hlast : ((after key previous l).take n).getLast? = some last) :
    after key (some (key last)) l = (after key previous l).drop n := by
  have hsorted : KeySorted key (after key previous l) :=
    List.Pairwise.filter _ hs
  have hmem : last ∈ after key previous l :=
    List.mem_of_mem_take (List.mem_of_getLast? hlast)
  have hwithin :
      after key (some (key last)) l =
          after key (some (key last)) (after key previous l) := by
    have hboth : ∀ x ∈ l, ((some (key last)).all fun k => decide (k < key x)) =
        (((some (key last)).all fun k => decide (k < key x)) &&
            previous.all fun k => decide (k < key x)) := by
      intro x _
      rw [Option.all_some]
      by_cases hx : key last < key x
      · rw [decide_eq_true hx, Bool.true_and]
        cases previous with
        | none => rfl
        | some k =>
            rw [Option.all_some]
            exact (decide_eq_true (((mem_after.mp hmem).2 k rfl).trans hx)).symm
      · rw [decide_eq_false hx, Bool.false_and]
    rw [after, List.filter_congr hboth, after, after, List.filter_filter]
  rw [hwithin]
  conv_lhs => rw [← List.take_append_drop n (after key previous l)]
  rw [← List.take_append_drop n (after key previous l)] at hsorted
  obtain ⟨htaken, -, hcross⟩ := List.pairwise_append.mp hsorted
  have hnone : after key (some (key last)) ((after key previous l).take n) =
      [] := by
    refine List.filter_eq_nil_iff.mpr fun x hx => ?_
    rw [Option.all_some, decide_eq_true_eq]
    exact not_lt.mpr (KeySorted.le_last htaken hlast x hx)
  have hall : after key (some (key last)) ((after key previous l).drop n) =
      (after key previous l).drop n := by
    refine List.filter_eq_self.mpr fun x hx => ?_
    rw [Option.all_some, decide_eq_true_eq]
    exact hcross last (List.mem_of_getLast? hlast) x hx
  rw [after, List.filter_append]
  show after key (some (key last)) ((after key previous l).take n) ++
    after key (some (key last)) _ = _
  rw [hnone, hall, List.nil_append]

namespace Pager

variable {ρ π τ ε : Type*} {pager : Pager ρ π τ ε} {page : ℕ → ρ → Except ε π}
  {Holds : π → List α → Prop}
  {Legal : ρ → Prop} {cursor : ρ → Option κ} {size : ℕ → ℕ}

theorem Goes.of_cut (hs : KeySorted key l) (hsize : ∀ i, 0 < size i)
    (hanswers : ∀ i request, Legal request →
      ∃ answer, page i request = .ok answer ∧
      Holds answer ((after key (cursor request) l).take (size i)) ∧
      pager.truncated answer =
        decide (size i < (after key (cursor request) l).length) ∧
      ∀ last ∈ after key (cursor request) l,
        ((after key (cursor request) l).take (size i)).getLast? = some last →
        pager.truncated answer = true →
        ∃ token, pager.next answer = some token ∧
          pager.advances request token = true ∧
          Legal (pager.resume request token) ∧
          cursor (pager.resume request token) = some (key last))
    (hsame : ∀ request request', Legal request → Legal request' →
      ∀ token, pager.token request = some token →
      pager.token request' = some token → cursor request = cursor request') :
    pager.Goes page
      (fun request => after key (cursor request) l) Holds Legal := by
  refine ⟨?_, ?_⟩
  · intro i request hlegal
    obtain ⟨answer, hanswer, hholds, htruncated, hgoes⟩ :=
      hanswers i request hlegal
    refine ⟨answer, hanswer, ?_⟩
    by_cases hmore : size i < (after key (cursor request) l).length
    · right
      have htruncated : pager.truncated answer = true :=
        htruncated.trans (decide_eq_true hmore)
      have htaken : ((after key (cursor request) l).take (size i)).length =
          size i := by
        rw [List.length_take]
        exact min_eq_left hmore.le
      have hsome : (after key (cursor request) l).take (size i) ≠ [] := by
        rw [← List.length_pos_iff, htaken]
        exact hsize i
      obtain ⟨last, hlast⟩ :=
        Option.ne_none_iff_exists'.mp (mt List.getLast?_eq_none_iff.mp hsome)
      obtain ⟨token, hnext, hadvances, hresumes, hcursor⟩ :=
        hgoes last
          (List.mem_of_mem_take (List.mem_of_getLast? hlast)) hlast htruncated
      refine ⟨token, _, htruncated, hnext, hadvances, hresumes, hholds, hsome,
        ?_, ?_⟩
      · rw [hcursor, after_last hs hlast, ← List.length_pos_iff,
          List.length_drop]
        omega
      · rw [hcursor, after_last hs hlast, List.take_append_drop]
    · left
      rw [List.take_of_length_le (not_lt.mp hmore)] at hholds
      exact ⟨htruncated.trans (decide_eq_false hmore), hholds⟩
  · intro request request' hlegal hlegal' token htoken htoken'
    rw [hsame request request' hlegal hlegal' token htoken htoken']

end Pager

end Cut

end Lib
