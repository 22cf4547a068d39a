/-
# `Lib.Fleet` — many machines over one resource

A machine that shares a resource with others acts on both at once: `act : μ → ρ
→ ℓ → Option (μ × ρ)`.  Any number of such machines over one resource is a
machine again.  A label says which member acts and how, or that another member
joins, so a run of the fleet is one interleaving of its members, and a result
about every run holds under every scheduler.  No member ever leaves: one that
has ended has no labels left.

Two kinds of rules are all that is needed here.  What all members have, or some
member has, is still so after a step if the one member that acted has it
(`forall_set`, `exists_set`). And a number that is summed over the members
changes with a step by what the one member changes it (`total_act`), so a law of
the resource is proved member by member.
-/
import S3Wire.Lib.History

namespace Lib

/-- The members, in the order in which they joined, and the resource. -/
structure Fleet (μ ρ : Type*) where
  members : List μ
  shared : ρ

/-- A member joins, or the member with a number acts. -/
inductive FleetLabel (ι ℓ : Type*) where
  | join (input : ι)
  | act (member : ℕ) (label : ℓ)

namespace Fleet

section Machine

variable {μ ρ ι ℓ : Type*} (spawn : ι → μ) (act : μ → ρ → ℓ → Option (μ × ρ))

/-- The member that is named acts on itself and on the resource. -/
def step (f : Fleet μ ρ) : FleetLabel ι ℓ → Option (Fleet μ ρ)
  | .join input => some { f with members := f.members ++ [spawn input] }
  | .act i label =>
      match f.members[i]? with
      | none => none
      | some m =>
          match act m f.shared label with
          | none => none
          | some (m', shared) => some ⟨f.members.set i m', shared⟩

/-- A sum over the members. -/
def total (f : Fleet μ ρ) (weight : μ → ℕ) : ℕ := (f.members.map weight).sum

end Machine

section Rules

variable {μ ρ ι ℓ : Type*} {spawn : ι → μ} {act : μ → ρ → ℓ → Option (μ × ρ)}
  {f f' : Fleet μ ρ}
  {i : ℕ} {label : ℓ}

theorem step_act (h : step spawn act f (.act i label) = some f') :
    ∃ m m' shared, f.members[i]? = some m ∧
    act m f.shared label = some (m', shared) ∧
      f' = ⟨f.members.set i m', shared⟩ := by
  rw [step] at h
  split at h
  · cases h
  · next m hm =>
      split at h
      · cases h
      · next m' shared hact =>
          cases h
          exact ⟨m, m', shared, hm, hact, rfl⟩

theorem forall_join {l : List μ} {new : μ} {P : μ → Prop} (h : ∀ m ∈ l, P m)
    (hnew : P new) :
    ∀ m ∈ l ++ [new], P m := by
  intro m hm
  rcases List.mem_append.mp hm with hm | hm
  · exact h m hm
  · rw [List.mem_singleton.mp hm]
    exact hnew

theorem forall_set {l : List μ} {new : μ} {P : μ → Prop} (h : ∀ m ∈ l, P m)
    (hnew : P new) :
    ∀ m ∈ l.set i new, P m := by
  intro m hm
  rcases List.mem_or_eq_of_mem_set hm with hm | rfl
  · exact h m hm
  · exact hnew

/-- One member that has a property still has it when another acts, and when it
acts itself and keeps it. -/
theorem exists_set {l : List μ} {old new : μ} {P : μ → Prop}
    (h : l[i]? = some old) (hP : P old → P new) (hex : ∃ m ∈ l, P m) :
    ∃ m ∈ l.set i new, P m := by
  obtain ⟨m, hm, hPm⟩ := hex
  obtain ⟨j, hj⟩ := List.getElem?_of_mem hm
  by_cases hij : i = j
  · subst hij
    obtain rfl := Option.some.inj (h.symm.trans hj)
    exact ⟨new, List.mem_set (List.getElem?_eq_some_iff.mp h).1 new, hP hPm⟩
  · exact ⟨m, List.mem_of_getElem? ((List.getElem?_set_ne hij).trans hj), hPm⟩

/-! ### Sums -/

theorem sum_map_set (weight : μ → ℕ) :
    ∀ {l : List μ} {i : ℕ} {old : μ} (new : μ), l[i]? = some old →
    ((l.set i new).map weight).sum + weight old =
      (l.map weight).sum + weight new
  | [], _, _, _, h => nomatch h
  | x :: l, 0, old, new, h => by
      cases h
      simp only [List.set_cons_zero, List.map_cons, List.sum_cons]
      omega
  | x :: l, i + 1, old, new, h => by
      have ih := sum_map_set weight new (List.getElem?_cons_succ.symm.trans h)
      simp only [List.set_cons_succ, List.map_cons, List.sum_cons]
      omega

theorem total_act {old : μ} (h : f.members[i]? = some old) (new : μ)
    (shared : ρ) (weight : μ → ℕ) :
    (⟨f.members.set i new, shared⟩ : Fleet μ ρ).total weight + weight old =
      f.total weight + weight new :=
  sum_map_set weight new h

theorem total_join (f : Fleet μ ρ) (m : μ) (weight : μ → ℕ) :
    ({ f with members := f.members ++ [m] } : Fleet μ ρ).total weight =
      f.total weight + weight m := by
  rw [total, List.map_append, List.sum_append]
  rfl

theorem mul_total_le {a b : ℕ} {weight weight' : μ → ℕ}
    (h : ∀ m ∈ f.members, a * weight m ≤ b + weight' m) :
    a * f.total weight ≤ b * f.members.length + f.total weight' := by
  have hsum : ∀ l : List μ, (∀ m ∈ l, a * weight m ≤ b + weight' m) →
      a * (l.map weight).sum ≤ b * l.length + (l.map weight').sum := by
    intro l
    induction l with
    | nil => exact fun _ => le_rfl
    | cons m l ih =>
        intro hl
        rw [List.forall_mem_cons] at hl
        have hrest := ih hl.2
        rw [List.map_cons, List.map_cons, List.sum_cons, List.sum_cons,
          List.length_cons, Nat.mul_add,
          Nat.mul_add_one]
        have hm := hl.1
        omega
  exact hsum f.members h

end Rules

end Fleet

end Lib
