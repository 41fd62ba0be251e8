/-
`while` loops.

A loop is given the number of times that its condition may be tested; `none` says that they
did not suffice.  A loop with an invariant that counts the rounds up to its end ends after
just so many, and in a state that does not depend on how many more were allowed.
-/
import Mathlib.Tactic.Common

namespace CLib

variable {ε σ : Type}

/-- `while (guard) body`, for at most so many tests of the condition. -/
def whileLoop (guard : σ → Except ε Bool) (body : σ → Except ε (Option σ)) :
    ℕ → σ → Except ε (Option σ)
  | 0, _ => .ok none
  | fuel + 1, s => do
    if ← guard s then
      match ← body s with
      | some s' => whileLoop guard body fuel s'
      | none => .ok none
    else .ok (some s)

variable {guard : σ → Except ε Bool} {body : σ → Except ε (Option σ)} {fuel : ℕ} {s s' : σ}

lemma whileLoop_of_false (h : guard s = .ok false) :
    whileLoop guard body (fuel + 1) s = .ok (some s) := by
  rw [whileLoop, h]
  rfl

lemma whileLoop_of_true (h : guard s = .ok true) (hbody : body s = .ok (some s')) :
    whileLoop guard body (fuel + 1) s = whileLoop guard body fuel s' := by
  rw [whileLoop, h]
  simp only [bind, Except.bind, if_true, hbody]

/-- The rule for loops that are `n` rounds from their end, where the body has a loop of its
own: with fewer tests than `n` the loop is cut short, with more it ends in one state. -/
lemma whileLoop_of_nested_rounds {body : ℕ → σ → Except ε (Option σ)} {inner : ℕ}
    (inv : ℕ → σ → Prop) (hdone : ∀ s, inv 0 s → guard s = .ok false)
    (hround : ∀ n s, inv (n + 1) s → guard s = .ok true ∧
      ∃ s', (∀ fuel > inner, body fuel s = .ok (some s')) ∧ inv n s')
    {n : ℕ} (h : inv n s) :
    (∀ fuel' > inner, ∀ fuel ≤ n, whileLoop guard (body fuel') fuel s = .ok none) ∧
      ∃ s', inv 0 s' ∧
        ∀ fuel' > inner, ∀ fuel > n, whileLoop guard (body fuel') fuel s = .ok (some s') := by
  induction n generalizing s with
  | zero =>
    refine ⟨fun fuel' _ fuel hfuel => ?_, s, h, fun fuel' _ fuel hfuel => ?_⟩
    · rw [Nat.le_zero.mp hfuel, whileLoop]
    · obtain ⟨fuel, rfl⟩ := Nat.exists_eq_succ_of_ne_zero (by omega : fuel ≠ 0)
      exact whileLoop_of_false (hdone s h)
  | succ n ih =>
    obtain ⟨htrue, s₁, hbody, hinv⟩ := hround n s h
    obtain ⟨hshort, s', hs', hlong⟩ := ih hinv
    refine ⟨fun fuel' hfuel' fuel hfuel => ?_, s', hs', fun fuel' hfuel' fuel hfuel => ?_⟩
    · cases fuel with
      | zero => rw [whileLoop]
      | succ fuel =>
        rw [whileLoop_of_true htrue (hbody fuel' hfuel')]
        exact hshort fuel' hfuel' fuel (by omega)
    · obtain ⟨fuel, rfl⟩ := Nat.exists_eq_succ_of_ne_zero (by omega : fuel ≠ 0)
      rw [whileLoop_of_true htrue (hbody fuel' hfuel')]
      exact hlong fuel' hfuel' fuel (by omega)

/-- The rule for a body that does not depend on the number of tests. -/
lemma whileLoop_of_rounds (inv : ℕ → σ → Prop) (hdone : ∀ s, inv 0 s → guard s = .ok false)
    (hround : ∀ n s, inv (n + 1) s →
      guard s = .ok true ∧ ∃ s', body s = .ok (some s') ∧ inv n s')
    {n : ℕ} (h : inv n s) :
    (∀ fuel ≤ n, whileLoop guard body fuel s = .ok none) ∧
      ∃ s', inv 0 s' ∧ ∀ fuel > n, whileLoop guard body fuel s = .ok (some s') := by
  have hround' : ∀ n s, inv (n + 1) s → guard s = .ok true ∧
      ∃ s', (∀ fuel > 0, (fun _ => body) fuel s = .ok (some s')) ∧ inv n s' := by
    intro n s hinv
    obtain ⟨htrue, s', hbody, hinv'⟩ := hround n s hinv
    exact ⟨htrue, s', fun _ _ => hbody, hinv'⟩
  obtain ⟨hshort, s', hs', hlong⟩ := whileLoop_of_nested_rounds inv hdone hround' h
  exact ⟨hshort 1 Nat.one_pos, s', hs', hlong 1 Nat.one_pos⟩

end CLib
