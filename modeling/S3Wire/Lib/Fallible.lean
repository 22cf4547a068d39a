/-
# `Lib.Fallible` — taking a computation that may fail apart

A chain of `Except` computations that ended well has ended well in every link
(`bind_ok`), and a list mapped through a fallible function is mapped element by
element: `mapM_ok` reads that off a result, `mapM_some` builds the result from
it. What its errors can be is put together in the same way (`Fails`).
-/
import Mathlib

namespace Lib

universe u v

variable {ε : Type v} {α β : Type u}

theorem bind_ok {x : Except ε α} {f : α → Except ε β} {b : β}
    (h : x >>= f = .ok b) :
    ∃ a, x = .ok a ∧ f a = .ok b := by
  cases x with
  | error e => cases h
  | ok a => exact ⟨a, rfl, h⟩

theorem toOption_ok {x : Except ε α} {a : α} (h : x.toOption = some a) :
    x = .ok a := by
  cases x with
  | error e => cases h
  | ok b => exact congrArg Except.ok (Option.some.inj h)

theorem mapM_ok {f : α → Except ε β} :
    ∀ {l : List α} {l' : List β}, l.mapM f = .ok l' →
    List.Forall₂ (fun a b => f a = .ok b) l l'
  | [], l', h => by
      cases h
      exact .nil
  | a :: l, l', h => by
      rw [List.mapM_cons] at h
      obtain ⟨b, hb, h⟩ := bind_ok h
      obtain ⟨rest, hrest, h⟩ := bind_ok h
      cases h
      exact .cons hb (mapM_ok hrest)

theorem mapM_of_forall₂ {R : α → β → Prop} {f : α → Except ε β} {l : List α}
    {l' : List β} (h : List.Forall₂ R l l') (hf : ∀ a b, R a b → f a = .ok b) :
    l.mapM f = .ok l' := by
  induction h with
  | nil => rfl
  | cons hab _ ih =>
      rw [List.mapM_cons, hf _ _ hab, ih]
      rfl

theorem forall₂_left {R : α → β → Prop} {l : List α} {l' : List β}
    (h : List.Forall₂ R l l') :
    ∀ a ∈ l, ∃ b ∈ l', R a b := by
  induction h with
  | nil => exact List.forall_mem_nil _
  | @cons a b l l' hab _ ih =>
      refine List.forall_mem_cons.mpr ⟨⟨b, List.mem_cons_self .., hab⟩, ?_⟩
      intro a' ha'
      obtain ⟨b', hb', hab'⟩ := ih a' ha'
      exact ⟨b', List.mem_cons_of_mem _ hb', hab'⟩

theorem mapM_some {f : α → Option β} {l : List α} {l' : List β}
    (h : List.Forall₂ (fun a b => f a = some b) l l') : l.mapM f = some l' := by
  induction h with
  | nil => rfl
  | cons hb _ ih =>
      rw [List.mapM_cons, hb, ih]
      rfl

theorem forall₂_of_mapM {f : α → Option β} :
    ∀ {l : List α} {l' : List β}, l.mapM f = some l' →
    List.Forall₂ (fun a b => f a = some b) l l'
  | [], l', h => by
      rw [List.mapM_nil] at h
      cases h
      exact .nil
  | a :: l, l', h => by
      rw [List.mapM_cons] at h
      obtain ⟨b, hb, h⟩ := Option.bind_eq_some_iff.mp h
      obtain ⟨bs, hbs, h⟩ := Option.bind_eq_some_iff.mp h
      cases h
      exact .cons hb (forall₂_of_mapM hbs)

/-- Where each result is known, so is the list of them. -/
theorem forall₂_eq_map {R : α → β → Prop} {g : α → β} {l : List α} {l' : List β}
    (h : List.Forall₂ R l l') (hg : ∀ a ∈ l, ∀ b, R a b → b = g a) :
    l' = l.map g := by
  induction h with
  | nil => rfl
  | @cons a b l l' hb hrest ih =>
      rw [List.forall_mem_cons] at hg
      rw [List.map_cons, hg.1 b hb, ih hg.2]

/-! ## How a computation fails -/

section Fails

variable {P : ε → Prop}

/-- Every error of a computation is of a kind. -/
def Fails (P : ε → Prop) (x : Except ε α) : Prop := ∀ e, x = .error e → P e

theorem Fails.ok (a : α) : Fails P (.ok a : Except ε α) := nofun

theorem Fails.error {e : ε} (h : P e) : Fails P (.error e : Except ε α) := by
  intro e' he
  cases he
  exact h

theorem Fails.bind {x : Except ε α} {f : α → Except ε β} (hx : Fails P x)
    (hf : ∀ a, Fails P (f a)) :
    Fails P (x >>= f) := by
  intro e he
  cases x with
  | error e' =>
      cases he
      exact hx e rfl
  | ok a => exact hf a e he

theorem Fails.bind_of {x : Except ε α} {f : α → Except ε β} (hx : Fails P x)
    (hf : ∀ a, x = .ok a → Fails P (f a)) :
    Fails P (x >>= f) := by
  intro e he
  cases x with
  | error e' =>
      cases he
      exact hx e rfl
  | ok a => exact hf a rfl e he

theorem Fails.mapM {f : α → Except ε β} (hf : ∀ a, Fails P (f a)) :
    ∀ l : List α, Fails P (l.mapM f)
  | [] => Fails.ok []
  | a :: l => by
      rw [List.mapM_cons]
      exact Fails.bind (hf a) fun b => Fails.bind (Fails.mapM hf l) fun bs =>
        Fails.ok (b :: bs)

end Fails

end Lib
