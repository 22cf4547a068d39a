/-
# `Lib.History` — runs of a deterministic machine and the histories they leave

Two notions carry every result about a component that takes step after step.

* A machine is a partial step function `step : σ → ℓ → Option σ`.  All the
  freedom of the environment — which message arrives, which branch of a choice
  is taken, what a clock shows — is in the label, so a run is just a list of
  labels and `exec step s ls` replays it.  A property kept by every step is kept
  by every run (`exec_invariant`), and so is one that is kept only by the steps
  that meet a side condition, along the runs all of whose steps meet it
  (`exec_invariant_of`).

* A history is the list of events a run has logged, LATEST FIRST, so that the
  past of an event is literally the tail behind it.  `Justified R h` says that
  every event of `h` stands in the relation `R` to its own past.  Ordering laws
  ("no part starts after the abort", "the completion comes after every part",
  "at most once") are all of this form, and each is one clause of one `R`.
-/
import Mathlib

namespace Lib

/-! ## Runs -/

section Exec

variable {σ ℓ : Type*} {step : σ → ℓ → Option σ} {P : σ → ℓ → Prop}

/-- Replay a list of labels.  `none` as soon as one of them is not enabled. -/
def exec (step : σ → ℓ → Option σ) : σ → List ℓ → Option σ
  | s, [] => some s
  | s, l :: ls =>
      match step s l with
      | some s' => exec step s' ls
      | none => none

@[simp] theorem exec_nil (s : σ) : exec step s [] = some s := rfl

theorem exec_cons {s s' : σ} {l : ℓ} {ls : List ℓ}
    (h : exec step s (l :: ls) = some s') :
    ∃ m, step s l = some m ∧ exec step m ls = some s' := by
  cases hs : step s l with
  | none => simp [exec, hs] at h
  | some m =>
      simp only [exec, hs] at h
      exact ⟨m, rfl, h⟩

theorem exec_of_step {s m : σ} {l : ℓ} (h : step s l = some m) (ls : List ℓ) :
    exec step s (l :: ls) = exec step m ls := by
  rw [exec, h]

theorem exec_append : ∀ {ls : List ℓ} {s m : σ} (ls' : List ℓ),
    exec step s ls = some m →
    exec step s (ls ++ ls') = exec step m ls'
  | [], _, _, _, h => by
      cases h
      rfl
  | l :: ls, s, m, ls', h => by
      obtain ⟨s₁, hs₁, hrest⟩ := exec_cons h
      rw [List.cons_append, exec, hs₁]
      exact exec_append ls' hrest

theorem exec_invariant {I : σ → Prop}
    (hstep : ∀ {s l s'}, step s l = some s' → I s → I s') :
    ∀ {ls : List ℓ} {s s' : σ}, exec step s ls = some s' → I s → I s'
  | [], s, s', h, hi => by
      cases h
      exact hi
  | l :: ls, s, s', h, hi => by
      obtain ⟨m, hm, hrest⟩ := exec_cons h
      exact exec_invariant hstep hrest (hstep hm hi)

theorem exec_of_check (step : σ → ℓ → Option σ) (s : σ) (ls : List ℓ)
    (p : σ → Bool) (h : (exec step s ls).any p = true) :
    ∃ s', exec step s ls = some s' ∧ p s' = true := by
  cases hs : exec step s ls with
  | none => simp [hs] at h
  | some s' => exact ⟨s', rfl, by simpa [hs] using h⟩

/-- Every step of the run meets `C`, read in the state it is taken from. -/
def Along (step : σ → ℓ → Option σ) (C : σ → ℓ → Prop) : σ → List ℓ → Prop
  | _, [] => True
  | s, l :: ls =>
      C s l ∧
        match step s l with
        | some s' => Along step C s' ls
        | none => True

instance Along.decide [C : ∀ s l, Decidable (P s l)] : ∀ (s : σ) (ls : List ℓ),
    Decidable (Along step P s ls)
  | _, [] => .isTrue trivial
  | s, l :: ls =>
      match C s l with
      | .isFalse h => .isFalse fun hp => h hp.1
      | .isTrue h =>
          match hs : step s l with
          | none => .isTrue ⟨h, by rw [hs]; trivial⟩
          | some s' =>
              match Along.decide s' ls with
              | .isTrue hrest => .isTrue ⟨h, by rw [hs]; exact hrest⟩
              | .isFalse hrest =>
                  .isFalse fun hp => hrest (by have := hp.2; rwa [hs] at this)

theorem along_of_forall {C : σ → ℓ → Prop} :
    ∀ {ls : List ℓ}, (∀ s, ∀ l ∈ ls, C s l) →
    ∀ s, Along step C s ls
  | [], _, _ => trivial
  | l :: ls, h, s => by
      refine ⟨h s l (List.mem_cons_self ..), ?_⟩
      cases step s l with
      | none => exact trivial
      | some s' =>
          exact along_of_forall
            (fun s l hl => h s l (List.mem_cons_of_mem _ hl)) s'

theorem along_append {C : σ → ℓ → Prop} :
    ∀ {ls : List ℓ} {s m : σ} (ls' : List ℓ),
    exec step s ls = some m →
    (Along step C s (ls ++ ls') ↔ Along step C s ls ∧ Along step C m ls')
  | [], s, m, ls', h => by
      cases h
      exact (and_iff_right trivial).symm
  | l :: ls, s, m, ls', h => by
      obtain ⟨s', hs', hrest⟩ := exec_cons h
      rw [List.cons_append, Along, Along, hs', and_assoc]
      exact and_congr_right fun _ => along_append ls' hrest

/-- The conditional form: a property kept by the steps that meet `C` is kept by
the runs all of whose steps meet `C`. -/
theorem exec_invariant_of {C : σ → ℓ → Prop} {I : σ → Prop}
    (hstep : ∀ {s l s'}, step s l = some s' → C s l → I s → I s') :
    ∀ {ls : List ℓ} {s s' : σ}, exec step s ls = some s' → Along step C s ls →
    I s → I s'
  | [], s, s', h, _, hi => by
      cases h
      exact hi
  | l :: ls, s, s', h, hc, hi => by
      obtain ⟨m, hm, hrest⟩ := exec_cons h
      obtain ⟨hl, hls⟩ := hc
      rw [hm] at hls
      exact exec_invariant_of hstep hrest hls (hstep hm hl hi)

/-- The exact form: where every step keeps a property exactly when it meets `C`,
the property is kept by exactly the runs all of whose steps do.  `J` is what is
known of every state. -/
theorem exec_iff_along {C : σ → ℓ → Prop} {I J : σ → Prop}
    (hknown : ∀ {s l s'}, step s l = some s' → J s → J s')
    (hstep : ∀ {s l s'}, step s l = some s' → J s → (I s' ↔ I s ∧ C s l)) :
    ∀ {ls : List ℓ} {s s' : σ}, exec step s ls = some s' → J s →
    (I s' ↔ I s ∧ Along step C s ls)
  | [], s, s', h, _ => by
      cases h
      exact (and_iff_left trivial).symm
  | l :: ls, s, s', h, hj => by
      obtain ⟨m, hm, hrest⟩ := exec_cons h
      rw [exec_iff_along hknown hstep hrest (hknown hm hj), hstep hm hj, Along,
        hm, and_assoc]

/-- A step of one machine matched by some steps of another, a run of the one is
matched by a run of the other, step by step: however far the one has come, the
other has made its moves for the steps so far. -/
theorem exec_simulates {σ' ℓ' : Type*} {step' : σ' → ℓ' → Option σ'}
    {R : σ → σ' → Prop}
    (hstep : ∀ {s l s' t}, step s l = some s' → R s t →
      ∃ ls t', exec step' t ls = some t' ∧ R s' t') :
    ∀ {ls : List ℓ} {s s' : σ} {t : σ'}, exec step s ls = some s' → R s t →
      ∃ moves : List (List ℓ'), moves.length = ls.length ∧ ∀ k, ∃ m n,
        exec step s (ls.take k) = some m ∧
        exec step' t (moves.take k).flatten = some n ∧ R m n
  | [], s, s', t, h, hr => by
      refine ⟨[], rfl, fun k => ⟨s, t, ?_, ?_, hr⟩⟩
      · rw [List.take_nil]
        rfl
      · rw [List.take_nil]
        rfl
  | l :: ls, s, s', t, h, hr => by
      obtain ⟨m, hm, hrest⟩ := exec_cons h
      obtain ⟨first, n, hfirst, hn⟩ := hstep hm hr
      obtain ⟨later, hlength, hlater⟩ := exec_simulates hstep hrest hn
      refine ⟨first :: later, congrArg (· + 1) hlength, fun k => ?_⟩
      cases k with
      | zero => exact ⟨s, t, rfl, rfl, hr⟩
      | succ k =>
          obtain ⟨m', n', hm', hn', hr'⟩ := hlater k
          exact ⟨m', n', (exec_of_step hm _).trans hm',
            (exec_append _ hfirst).trans hn', hr'⟩

theorem exec_turning {T : σ → Prop} :
    ∀ {ls : List ℓ} {s s' : σ}, exec step s ls = some s' → ¬ T s → T s' →
    ∃ before l after m m', ls = before ++ l :: after ∧
    exec step s before = some m ∧ step m l = some m' ∧
      ¬ T m ∧ T m'
  | [], s, s', h, hnot, ht => by
      cases h
      exact absurd ht hnot
  | l :: ls, s, s', h, hnot, ht => by
      obtain ⟨m, hm, hrest⟩ := exec_cons h
      by_cases hturned : T m
      · exact ⟨[], l, ls, s, m, rfl, rfl, hm, hnot, hturned⟩
      · obtain ⟨before, l', after, n, n', rfl, hbefore, hn, hnotn, htn⟩ :=
          exec_turning hrest hturned ht
        exact ⟨l :: before, l', after, n, n', rfl,
          (exec_of_step hm before).trans hbefore, hn, hnotn, htn⟩

end Exec

/-! ## Histories -/

section Justified

variable {ε : Type*} {R S : ε → List ε → Prop}

/-- Every event stands in `R` to the events before it. -/
def Justified (R : ε → List ε → Prop) : List ε → Prop
  | [] => True
  | e :: past => R e past ∧ Justified R past

@[simp] theorem justified_nil : Justified R [] := trivial

@[simp] theorem justified_cons {e : ε} {past : List ε} :
    Justified R (e :: past) ↔ R e past ∧ Justified R past := Iff.rfl

theorem Justified.past {later past : List ε} (h : Justified R (later ++ past)) :
    Justified R past := by
  induction later with
  | nil => exact h
  | cons x later ih => exact ih h.2

theorem Justified.at_split {later past : List ε} {e : ε}
    (h : Justified R (later ++ e :: past)) : R e past :=
  h.past.1

/-- Every event is justified by some past that is a part of the history. -/
theorem Justified.of_mem {h : List ε} {e : ε} (hj : Justified R h)
    (he : e ∈ h) :
    ∃ past, past <:+ h ∧ R e past := by
  obtain ⟨later, past, rfl⟩ := List.append_of_mem he
  exact ⟨past, ⟨later ++ [e], by simp⟩, hj.at_split⟩

/-- If an event of kind `q` forbids a past event of kind `p`, then nothing of
kind `q` comes after anything of kind `p`. -/
theorem Justified.not_after {p q : ε → Prop}
    (hR : ∀ {e past}, R e past → q e → ∀ x ∈ past, ¬ p x)
    {later past : List ε} {e : ε} (h : Justified R (later ++ e :: past))
    (he : p e) :
    ∀ x ∈ later, ¬ q x := by
  intro x hx hq
  obtain ⟨l₁, l₂, rfl⟩ := List.append_of_mem hx
  rw [List.append_assoc, List.cons_append] at h
  exact hR h.at_split hq e (by simp) he

/-- If an event of kind `p` forbids a past event of the same kind, any two are
the same event. -/
theorem Justified.eq_of_mem {p : ε → Prop}
    (hR : ∀ {e past}, R e past → p e → ∀ x ∈ past, ¬ p x) :
    ∀ {h : List ε}, Justified R h →
      ∀ {e e' : ε}, e ∈ h → e' ∈ h → p e → p e' → e = e'
  | x :: past, hj, e, e', he, he', hp, hp' => by
      rcases List.mem_cons.mp he with rfl | hpast
      · rcases List.mem_cons.mp he' with rfl | hpast'
        · rfl
        · exact absurd hp' (hR hj.1 hp e' hpast')
      · rcases List.mem_cons.mp he' with rfl | hpast'
        · exact absurd hp (hR hj.1 hp' e hpast)
        · exact Justified.eq_of_mem hR hj.2 hpast hpast' hp hp'

/-- If an event of kind `p` forbids a past event of the same kind, there is at
most one. -/
theorem Justified.countP_le_one {p : ε → Bool}
    (hR : ∀ {e past}, R e past → p e = true → ∀ x ∈ past, p x = false) :
    ∀ {h : List ε}, Justified R h → h.countP p ≤ 1
  | [], _ => by simp
  | e :: past, hj => by
      have ih := Justified.countP_le_one hR hj.2
      by_cases he : p e = true
      · have hzero : past.countP p = 0 := by
          rw [List.countP_eq_zero]
          intro x hx
          simp [hR hj.1 he x hx]
        rw [List.countP_cons_of_pos he, hzero]
      · rw [List.countP_cons_of_neg he]
        exact ih

/-- If an event with a number forbids past events with the same number, no
number occurs twice. -/
theorem Justified.nodup_filterMap {α : Type*} {f : ε → Option α}
    (hR : ∀ {e past a}, R e past → f e = some a → ∀ x ∈ past, f x ≠ some a) :
    ∀ {h : List ε}, Justified R h → (h.filterMap f).Nodup
  | [], _ => List.nodup_nil
  | e :: past, hj => by
      have ih := Justified.nodup_filterMap hR hj.2
      cases he : f e with
      | none =>
          rw [List.filterMap_cons_none he]
          exact ih
      | some a =>
          rw [List.filterMap_cons_some he]
          refine List.nodup_cons.mpr ⟨?_, ih⟩
          intro hmem
          obtain ⟨x, hx, hxa⟩ := List.mem_filterMap.mp hmem
          exact hR hj.1 he x hx hxa

end Justified

end Lib
