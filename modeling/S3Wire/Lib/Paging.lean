/-
# `Lib.Paging` — following the tokens of a listing

A listing comes in pages, and a page that is truncated names the token of the
next one. A `Pager` says where requests and pages carry their tokens; `follow`
asks for page after page, a bounded number of times, and never with a token that
it has asked with before. The service is anything at all: `page i r` is what it
answers to `r`, the request with the number `i`.

`Path` is the invariant of the loop: the pages up to a request, each of them
truncated and leading to the next request.  However a listing ends, it ends at
the end of a path (`loop_ends`), and `follow_lawful` reads the rest off paths.

Pages whose items are in order are in order together exactly when each goes on
after the last item before it (`continues_iff`); no token says that they do.
-/
import S3Wire.Lib.BinarySearch

namespace Lib

/-- The requests, pages, tokens and errors of a listing. -/
structure Pager (ρ π τ ε : Type*) where
  truncated : π → Bool
  next : π → Option τ
  /-- The token that a request is sent with. -/
  token : ρ → Option τ
  /-- A token that goes on from a request. -/
  advances : ρ → τ → Bool
  /-- The request for the page of a token. -/
  resume : ρ → τ → ρ
  missing : ε
  repeated : ε
  limit : ε
  token_resume : ∀ request token', token (resume request token') = some token'

/-- What was asked and answered, in order, and what came of it. -/
structure Listing (ρ π ε : Type*) where
  exchanges : List (ρ × Except ε π)
  result : Except ε (List π)

namespace Pager

section Follow

variable {ρ π τ ε : Type*} [DecidableEq τ] (pager : Pager ρ π τ ε)
  (page : ℕ → ρ → Except ε π)

/-- Pages that came, as exchanges. -/
def answered (past : List (ρ × π)) : List (ρ × Except ε π) :=
  past.map fun x => (x.1, .ok x.2)

/-- The loop, with the tokens it has seen and the pages it has. -/
def loop : ℕ → List τ → ρ → List (ρ × π) → Listing ρ π ε
  | 0, _, _, past => ⟨answered past, .error pager.limit⟩
  | budget + 1, seen, request, past =>
      match page past.length request with
      | .error e => ⟨answered past ++ [(request, .error e)], .error e⟩
      | .ok answer =>
          let pages := past ++ [(request, answer)]
          if pager.truncated answer = false then
            ⟨answered pages, .ok (pages.map Prod.snd)⟩
          else
            match pager.next answer with
            | none => ⟨answered pages, .error pager.missing⟩
            | some token =>
                if pager.advances request token = false ∨ token ∈ seen then
                  ⟨answered pages, .error pager.repeated⟩
                else loop budget (token :: seen)
                  (pager.resume request token) pages

/-- At most `maximum` pages, from a request whose own token counts as seen. -/
def follow (maximum : ℕ) (start : ρ) : Listing ρ π ε :=
  pager.loop page maximum (pager.token start).toList start []

end Follow

/-! ## Paths -/

section Paths

variable {ρ π τ ε : Type*} (pager : Pager ρ π τ ε) (page : ℕ → ρ → Except ε π)
  (start : ρ)

/-- The tokens of the requests up to one. -/
def tokens (past : List (ρ × π)) (request : ρ) : List (Option τ) :=
  (past.map fun x => pager.token x.1) ++ [pager.token request]

/-- The exchanges of a driver so far and the request that is next: each page was
truncated and its token is new. -/
inductive Path : List (ρ × π) → ρ → Prop
  | start : Path [] start
  | turn {past : List (ρ × π)} {request : ρ} {answer : π} {token : τ}
      (hpath : Path past request)
      (hanswer : page past.length request = .ok answer)
      (htruncated : pager.truncated answer = true)
      (hnext : pager.next answer = some token)
      (hadvances : pager.advances request token = true)
      (hfresh : some token ∉ pager.tokens past request) :
      Path (past ++ [(request, answer)]) (pager.resume request token)

/-- What is made of the last answer. -/
inductive Verdict (past : List (ρ × π)) (request : ρ) : Except ε π →
    Except ε (List π) → Prop
  | failed (e : ε) : Verdict past request (.error e) (.error e)
  | complete {answer : π} (hlast : pager.truncated answer = false) :
      Verdict past request (.ok answer)
        (.ok ((past ++ [(request, answer)]).map Prod.snd))
  | missing {answer : π} (htruncated : pager.truncated answer = true)
      (hnext : pager.next answer = none) :
      Verdict past request (.ok answer) (.error pager.missing)
  | repeated {answer : π} {token : τ}
      (htruncated : pager.truncated answer = true)
      (hnext : pager.next answer = some token)
      (hbad : pager.advances request token = false ∨
        some token ∈ pager.tokens past request) :
      Verdict past request (.ok answer) (.error pager.repeated)

/-- A listing ends with an answer, or after as many pages as there may be. -/
inductive Ends (maximum : ℕ) : Listing ρ π ε → Prop
  | asked {past : List (ρ × π)} {request : ρ} {answer : Except ε π}
    {result : Except ε (List π)}
      (hpath : pager.Path page start past request)
      (hbound : past.length < maximum)
      (hanswer : page past.length request = answer)
      (hverdict : pager.Verdict past request answer result) :
      Ends maximum ⟨answered past ++ [(request, answer)], result⟩
  | limit {past : List (ρ × π)} {request : ρ}
      (hpath : pager.Path page start past request)
      (hlength : past.length = maximum) :
        Ends maximum ⟨answered past, .error pager.limit⟩

variable {pager page start} {past : List (ρ × π)} {request : ρ}

theorem answered_append (past : List (ρ × π)) (request : ρ) (answer : π) :
    (answered (past ++ [(request, answer)]) : List (ρ × Except ε π)) =
      answered past ++ [(request, .ok answer)] :=
  List.map_append

theorem tokens_turn (past : List (ρ × π)) (request : ρ) (answer : π)
    (token : τ) :
    pager.tokens (past ++ [(request, answer)]) (pager.resume request token) =
      pager.tokens past request ++ [some token] := by
  rw [tokens, tokens, List.map_append, pager.token_resume]
  rfl

theorem Path.tokens_nodup (h : pager.Path page start past request) :
    (pager.tokens past request).Nodup := by
  induction h with
  | start => exact List.nodup_singleton _
  | turn _ _ _ _ _ hfresh ih =>
      rw [tokens_turn]
      exact List.nodup_append.mpr
          ⟨ih, List.nodup_singleton _, fun a ha b hb heq =>
        hfresh (List.mem_singleton.mp hb ▸ heq ▸ ha)⟩

/-- **However a listing ends, it ends at the end of a path.** -/
theorem loop_ends [DecidableEq τ] :
    ∀ (budget : ℕ) {seen : List τ} {request : ρ} {past : List (ρ × π)},
    pager.Path page start past request →
    (∀ token, token ∈ seen ↔ some token ∈ pager.tokens past request) →
      pager.Ends page start (past.length + budget)
        (pager.loop page budget seen request past)
  | 0, seen, request, past, hpath, _ => .limit hpath rfl
  | budget + 1, seen, request, past, hpath, hseen => by
      have hbound : past.length < past.length + (budget + 1) :=
        Nat.lt_add_of_pos_right budget.succ_pos
      rw [loop]
      cases hanswer : page past.length request with
      | error e => exact .asked hpath hbound hanswer (.failed e)
      | ok answer =>
          have hasked : ∀ {result : Except ε (List π)},
              pager.Verdict past request (.ok answer) result →
              pager.Ends page start (past.length + (budget + 1))
                ⟨answered (past ++ [(request, answer)]), result⟩ := by
            intro result hverdict
            rw [answered_append]
            exact .asked hpath hbound hanswer hverdict
          dsimp only
          split
          · next hlast => exact hasked (.complete hlast)
          · next hmore =>
              have htruncated := Bool.not_eq_false _ ▸ hmore
              split
              · next hnext => exact hasked (.missing htruncated hnext)
              · next token hnext =>
                  split
                  · next hbad =>
                      exact hasked
                        (.repeated htruncated hnext
                          (hbad.imp_right (hseen token).mp))
                  · next hgood =>
                      rw [hseen token, not_or, Bool.not_eq_false] at hgood
                      have hturn :=
                        Path.turn hpath hanswer htruncated hnext hgood.1 hgood.2
                      have hend :=
                        @loop_ends _ budget (token :: seen) _ _ hturn ?_
                      · rw [List.length_append, List.length_singleton,
                          Nat.add_assoc, Nat.add_comm 1] at hend
                        exact hend
                      · intro token'
                        rw [tokens_turn, List.mem_append, List.mem_singleton,
                          List.mem_cons, hseen token',
                          Option.some_inj, or_comm]

end Paths

/-! ## What holds of every listing -/

section Laws

variable {ρ π τ ε : Type*} (pager : Pager ρ π τ ε) (page : ℕ → ρ → Except ε π)
  (start : ρ) (maximum : ℕ)

/-- An exchange whose page names the token of the next request. -/
def Leads (first second : ρ × Except ε π) : Prop :=
  ∃ answer token, first.2 = .ok answer ∧ pager.truncated answer = true ∧
    pager.next answer = some token ∧
    pager.advances first.1 token = true ∧ second.1 = pager.resume first.1 token

/-- The result that belongs to the exchanges. -/
inductive Concluded (exchanges : List (ρ × Except ε π)) : Except ε (List π) →
    Prop
  | complete {pages : List π} {last : π}
    (hpages : exchanges.map Prod.snd = pages.map .ok)
      (hinner : ∀ answer ∈ pages.dropLast, pager.truncated answer = true ∧
        (pager.next answer).isSome = true)
      (hlast : pages.getLast? = some last)
      (hdone : pager.truncated last = false) : Concluded exchanges (.ok pages)
  | failed {request : ρ} {e : ε}
      (hlast : exchanges.getLast? = some (request, .error e)) :
      Concluded exchanges (.error e)
  | missing {request : ρ} {answer : π}
      (hlast : exchanges.getLast? = some (request, .ok answer))
      (htruncated : pager.truncated answer = true)
      (hnext : pager.next answer = none) :
      Concluded exchanges (.error pager.missing)
  | repeated {request : ρ} {answer : π} {token : τ}
      (hlast : exchanges.getLast? = some (request, .ok answer))
      (htruncated : pager.truncated answer = true)
      (hnext : pager.next answer = some token)
      (hbad : pager.advances request token = false ∨
        some token ∈ exchanges.map fun x => pager.token x.1) :
      Concluded exchanges (.error pager.repeated)
  | limit (hlength : exchanges.length = maximum)
      (hmore : ∀ x ∈ exchanges, ∃ answer, x.2 = .ok answer ∧
        pager.truncated answer = true ∧
        (pager.next answer).isSome = true) :
          Concluded exchanges (.error pager.limit)

/-- The answers are the service's. -/
def Asked (exchanges : List (ρ × Except ε π)) : Prop :=
  ∀ i x, exchanges[i]? = some x → x.2 = page i x.1

/-- What is asked of a listing: it is bounded, each request resumes from the
page before, and its result is the one that the pages lead to. -/
structure Lawful (listing : Listing ρ π ε) : Prop where
  bounded : listing.exchanges.length ≤ maximum
  starts : ∀ x ∈ listing.exchanges.head?, x.1 = start
  asked : Asked page listing.exchanges
  leads : listing.exchanges.IsChain pager.Leads
  /-- No token is sent twice. -/
  distinct : (listing.exchanges.map fun x => pager.token x.1).Nodup
  concluded : pager.Concluded maximum listing.exchanges listing.result

variable {pager page start maximum} {past : List (ρ × π)} {request : ρ}

theorem Path.starts (h : pager.Path page start past request)
    (answer : Except ε π) :
    ∀ x ∈ (answered past ++ [(request, answer)]).head?, x.1 = start := by
  induction h generalizing answer with
  | start =>
      intro x hx
      cases hx
      rfl
  | @turn past request answer' token hpath _ _ _ _ _ ih =>
      rw [answered_append,
        List.head?_append_of_ne_nil _
          (List.append_ne_nil_of_right_ne_nil _ (by simp))]
      exact ih (.ok answer')

theorem Asked.concat {exchanges : List (ρ × Except ε π)} {answer : Except ε π}
    (h : Asked page exchanges)
    (hanswer : page exchanges.length request = answer) :
    Asked page (exchanges ++ [(request, answer)]) := by
  intro i x hx
  rcases Nat.lt_trichotomy i exchanges.length with hlt | rfl | hgt
  · rw [List.getElem?_append_left hlt] at hx
    exact h i x hx
  · rw [List.getElem?_concat_length] at hx
    cases hx
    exact hanswer.symm
  · rw [List.getElem?_eq_none] at hx
    · cases hx
    · rw [List.length_append, List.length_singleton]
      exact hgt

theorem Path.asked (h : pager.Path page start past request) :
    Asked page (answered past : List (ρ × Except ε π)) := by
  induction h with
  | start => exact nofun
  | @turn past request answer token hpath hanswer _ _ _ _ ih =>
      rw [answered_append]
      refine ih.concat ?_
      rw [answered, List.length_map]
      exact hanswer

theorem Path.leads (h : pager.Path page start past request)
    (answer : Except ε π) :
    (answered past ++ [(request, answer)]).IsChain pager.Leads := by
  induction h generalizing answer with
  | start => exact .singleton _
  | @turn past request answer' token hpath _ htruncated hnext hadvances _ ih =>
      rw [answered_append, List.isChain_append]
      refine ⟨ih (.ok answer'), .singleton _, ?_⟩
      intro x hx y hy
      rw [List.getLast?_concat] at hx
      cases hx
      cases hy
      exact ⟨answer', token, rfl, htruncated, hnext, hadvances, rfl⟩

theorem Path.more (h : pager.Path page start past request) :
    ∀ x ∈ past, pager.truncated x.2 = true ∧
    (pager.next x.2).isSome = true := by
  induction h with
  | start => exact nofun
  | @turn past request answer token _ _ htruncated hnext _ _ ih =>
      intro x hx
      rcases List.mem_append.mp hx with hx | hx
      · exact ih x hx
      · obtain rfl := List.mem_singleton.mp hx
        exact ⟨htruncated, hnext ▸ rfl⟩

theorem map_token_answered (past : List (ρ × π)) (request : ρ)
    (answer : Except ε π) :
    (answered past ++ [(request, answer)]).map
      (fun x : ρ × Except ε π => pager.token x.1) =
      pager.tokens past request := by
  rw [List.map_append, answered, List.map_map]
  rfl

theorem Verdict.concluded {answer : Except ε π} {result : Except ε (List π)}
    (hpath : pager.Path page start past request)
    (h : pager.Verdict past request answer result) :
    pager.Concluded maximum (answered past ++ [(request, answer)]) result := by
  have hlast : (answered past ++ [(request, answer)]).getLast? =
    some (request, answer) := List.getLast?_concat
  cases h with
  | failed e => exact .failed hlast
  | missing htruncated hnext => exact .missing hlast htruncated hnext
  | repeated htruncated hnext hbad =>
      refine .repeated hlast htruncated hnext ?_
      rw [map_token_answered]
      exact hbad
  | @complete answer hdone =>
      refine @Concluded.complete _ _ _ _ _ _ _ _ answer ?_ ?_ ?_ hdone
      · rw [← answered_append, answered, List.map_map, List.map_map]
        rfl
      · intro other hother
        rw [List.map_append, List.map_singleton, List.dropLast_concat] at hother
        obtain ⟨x, hx, rfl⟩ := List.mem_map.mp hother
        exact hpath.more x hx
      · rw [List.map_append, List.map_singleton, List.getLast?_concat]

theorem Ends.lawful {listing : Listing ρ π ε}
    (h : pager.Ends page start maximum listing) :
    pager.Lawful page start maximum listing := by
  cases h with
  | @asked past request answer result hpath hbound hanswer hverdict =>
      refine ⟨?_, hpath.starts answer, ?_, hpath.leads answer, ?_,
        hverdict.concluded hpath⟩
      · rw [List.length_append, answered, List.length_map]
        exact hbound
      · refine hpath.asked.concat ?_
        rw [answered, List.length_map]
        exact hanswer
      · rw [map_token_answered]
        exact hpath.tokens_nodup
  | @limit past request hpath hlength =>
      have hnodup := hpath.tokens_nodup
      rw [tokens, List.nodup_append] at hnodup
      refine ⟨?_, ?_, hpath.asked,
        (hpath.leads (.error pager.limit)).left_of_append, ?_, .limit ?_ ?_⟩
      · rw [answered, List.length_map, hlength]
      · cases hpath with
        | start => exact nofun
        | @turn past request answer token hpath =>
            rw [answered_append]
            exact hpath.starts (.ok answer)
      · rw [answered, List.map_map]
        exact hnodup.1
      · rw [answered, List.length_map, hlength]
      · intro x hx
        obtain ⟨y, hy, rfl⟩ := List.mem_map.mp hx
        exact ⟨y.2, rfl, hpath.more y hy⟩

/-- **Every listing is lawful, whatever the service answers.** -/
theorem follow_lawful [DecidableEq τ] (pager : Pager ρ π τ ε)
    (page : ℕ → ρ → Except ε π) (maximum : ℕ) (start : ρ) :
    pager.Lawful page start maximum (pager.follow page maximum start) := by
  have hseen : ∀ token, token ∈ (pager.token start).toList ↔
      some token ∈ pager.tokens ([] : List (ρ × π)) start := by
    intro token
    rw [Option.mem_toList, tokens, List.map_nil, List.nil_append,
      List.mem_singleton]
    exact eq_comm
  have hends := @loop_ends _ _ _ _ pager page start _ maximum _ _ _ .start hseen
  rw [List.length_nil, Nat.zero_add] at hends
  exact hends.lawful

/-- A listing succeeds exactly when its last page says that it is the last. -/
theorem Concluded.ok_iff {exchanges : List (ρ × Except ε π)}
    {result : Except ε (List π)}
    (h : pager.Concluded maximum exchanges result) :
    (∃ pages, result = .ok pages) ↔
      ∃ request answer, exchanges.getLast? = some (request, .ok answer) ∧
      pager.truncated answer = false := by
  cases h with
  | @complete pages last hpages hinner hlast hdone =>
      refine iff_of_true ⟨pages, rfl⟩ ?_
      have hmapped := congrArg List.getLast? hpages
      rw [List.getLast?_map, List.getLast?_map, hlast] at hmapped
      obtain ⟨x, hx, hx'⟩ := Option.map_eq_some_iff.mp hmapped
      exact ⟨x.1, last, hx' ▸ hx, hdone⟩
  | failed hlast =>
      refine iff_of_false nofun ?_
      rintro ⟨request, answer, hok, -⟩
      cases hlast.symm.trans hok
  | missing hlast htruncated =>
      refine iff_of_false nofun ?_
      rintro ⟨request, answer, hok, hdone⟩
      cases hlast.symm.trans hok
      cases htruncated.symm.trans hdone
  | repeated hlast htruncated =>
      refine iff_of_false nofun ?_
      rintro ⟨request, answer, hok, hdone⟩
      cases hlast.symm.trans hok
      cases htruncated.symm.trans hdone
  | limit hlength hmore =>
      refine iff_of_false nofun ?_
      rintro ⟨request, answer, hok, hdone⟩
      obtain ⟨answer', hanswer', htruncated, -⟩ :=
        hmore _ (List.mem_of_getLast? hok)
      cases hanswer'
      cases htruncated.symm.trans hdone

end Laws

end Pager

/-! ## Items in order -/

section Continues

variable {α κ : Type*} [LinearOrder κ] (key : α → κ)

/-- Every page starts after `previous` and after the last item before it. -/
def Continues : κ → List (List α) → Prop
  | _, [] => True
  | previous, page :: rest =>
      (∀ first ∈ page.head?, previous < key first) ∧
        Continues ((page.getLast?.map key).getD previous) rest

variable {key} {page : List α}

theorem KeySorted.le_last (hs : KeySorted key page) {last : α}
    (hlast : page.getLast? = some last) :
    ∀ x ∈ page, key x ≤ key last := by
  intro x hx
  obtain ⟨front, rfl⟩ := List.getLast?_eq_some_iff.mp hlast
  rcases List.mem_append.mp hx with hx | hx
  · exact ((List.pairwise_append.mp hs).2.2 x hx last
      (List.mem_singleton_self last)).le
  · exact (congrArg key (List.mem_singleton.mp hx)).le

theorem KeySorted.first_le (hs : KeySorted key page) {first : α}
    (hfirst : page.head? = some first) :
    ∀ x ∈ page, key first ≤ key x := by
  intro x hx
  obtain ⟨rest, rfl⟩ := List.head?_eq_some_iff.mp hfirst
  rcases List.mem_cons.mp hx with rfl | hx
  · exact le_rfl
  · exact ((List.pairwise_cons.mp hs).1 x hx).le

/-- **Ordered pages are in order together exactly when each goes on where the
ones before it ended.** -/
theorem continues_iff : ∀ {pages : List (List α)} {previous : κ},
    (∀ page ∈ pages, KeySorted key page) →
    (Continues key previous pages ↔ KeySorted key pages.flatten ∧
      ∀ x ∈ pages.flatten, previous < key x)
  | [], previous, _ => iff_of_true trivial ⟨List.Pairwise.nil, nofun⟩
  | page :: rest, previous, hsorted => by
      obtain ⟨hpage, hrest⟩ := List.forall_mem_cons.mp hsorted
      rw [Continues, continues_iff hrest, List.flatten_cons]
      simp only [KeySorted, List.pairwise_append]
      cases hlast : page.getLast? with
      | none =>
          obtain rfl := List.getLast?_eq_none_iff.mp hlast
          constructor
          · rintro ⟨-, hordered, habove⟩
            exact ⟨⟨List.Pairwise.nil, hordered, nofun⟩, habove⟩
          · rintro ⟨⟨-, hordered, -⟩, habove⟩
            exact ⟨nofun, hordered, habove⟩
      | some last =>
          have hmem : last ∈ page := List.mem_of_getLast? hlast
          constructor
          · rintro ⟨hstarts, hordered, habove⟩
            have hstart : ∀ x ∈ page, previous < key x := by
              intro x hx
              obtain ⟨first, hfirst⟩ := Option.ne_none_iff_exists'.mp
                (mt List.head?_eq_none_iff.mp (List.ne_nil_of_mem hx))
              exact (hstarts first hfirst).trans_le (hpage.first_le hfirst x hx)
            refine ⟨⟨hpage, hordered, ?_⟩, ?_⟩
            · intro x hx y hy
              exact (hpage.le_last hlast x hx).trans_lt (habove y hy)
            · intro x hx
              rcases List.mem_append.mp hx with hx | hx
              · exact hstart x hx
              · exact (hstart last hmem).trans (habove x hx)
          · rintro ⟨⟨-, hordered, hcross⟩, habove⟩
            refine ⟨?_, hordered, ?_⟩
            · intro first hfirst
              exact habove first
                (List.mem_append_left _ (List.mem_of_head? hfirst))
            · intro x hx
              exact hcross last hmem x hx

end Continues

end Lib
