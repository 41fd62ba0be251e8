/-
Programs with a state that may fault.

A program is an element of `EStateM ε σ α`: from a state it ends either with a value or
with a fault, and in both cases with a state.  The lemmas here execute such a program one
statement at a time, the rules of `Keeps` say what a program leaves alone, also when it
faults on the way, and those of `Triple` lead from a precondition to two postconditions, one
for a value and one for a fault.
-/
import Mathlib.Tactic.Common

namespace CLib

variable {ε σ α β γ : Type}

/-! ### Execution -/

lemma bind_apply (x : EStateM ε σ α) (f : α → EStateM ε σ β) (s : σ) :
    (x >>= f) s = match x s with
      | .ok a s' => f a s'
      | .error e s' => .error e s' := by
  rfl

lemma bind_of_ok {x : EStateM ε σ α} {s s' : σ} {a : α} (h : x s = .ok a s')
    (f : α → EStateM ε σ β) : (x >>= f) s = f a s' := by
  rw [bind_apply, h]

lemma bind_of_error {x : EStateM ε σ α} {s s' : σ} {e : ε} (h : x s = .error e s')
    (f : α → EStateM ε σ β) : (x >>= f) s = .error e s' := by
  rw [bind_apply, h]

/-- A value behind a map comes from one before it. -/
lemma map_eq_ok_iff {x : EStateM ε σ α} {f : α → β} {b : β} {s s' : σ} :
    (f <$> x) s = .ok b s' ↔ ∃ a, x s = .ok a s' ∧ f a = b := by
  change (x >>= fun a => pure (f a)) s = _ ↔ _
  rw [bind_apply]
  cases x s with
  | ok a s₁ =>
    change EStateM.Result.ok (f a) s₁ = _ ↔ _
    simp only [EStateM.Result.ok.injEq]
    constructor
    · rintro ⟨rfl, rfl⟩
      exact ⟨a, ⟨rfl, rfl⟩, rfl⟩
    · rintro ⟨_, ⟨rfl, rfl⟩, rfl⟩
      exact ⟨rfl, rfl⟩
  | error e s₁ => simp

lemma map_some_eq_ok_iff {x : EStateM ε σ α} {a : α} {s s' : σ} :
    (some <$> x) s = .ok (some a) s' ↔ x s = .ok a s' := by
  simp [map_eq_ok_iff]

@[simp] lemma pure_apply (a : α) (s : σ) : (pure a : EStateM ε σ α) s = .ok a s := rfl

@[simp] lemma get_apply (s : σ) : (get : EStateM ε σ σ) s = .ok s s := rfl

@[simp] lemma modify_apply (f : σ → σ) (s : σ) :
    (modify f : EStateM ε σ PUnit) s = .ok ⟨⟩ (f s) := rfl

@[simp] lemma throw_apply (e : ε) (s : σ) : (throw e : EStateM ε σ α) s = .error e s := rfl

@[simp] lemma ofExcept_ok (a : α) (s : σ) :
    (ofExcept (.ok a : Except ε α) : EStateM ε σ α) s = .ok a s := rfl

@[simp] lemma ofExcept_error (e : ε) (s : σ) :
    (ofExcept (.error e : Except ε α) : EStateM ε σ α) s = .error e s := rfl

/-! ### What a program leaves alone -/

/-- The state that a run ends in, with a value or with a fault. -/
def stateOf : EStateM.Result ε σ α → σ
  | .ok _ s => s
  | .error _ s => s

@[simp] lemma stateOf_ok (a : α) (s : σ) :
    stateOf (.ok a s : EStateM.Result ε σ α) = s := rfl

@[simp] lemma stateOf_error (e : ε) (s : σ) :
    stateOf (.error e s : EStateM.Result ε σ α) = s := rfl

/-- However the program ends, `proj` of the state is what it was. -/
def Keeps (proj : σ → γ) (x : EStateM ε σ α) : Prop := ∀ s, proj (stateOf (x s)) = proj s

variable {proj : σ → γ}

lemma keeps_pure (a : α) : Keeps proj (pure a : EStateM ε σ α) := fun _ => rfl

lemma keeps_get : Keeps proj (get : EStateM ε σ σ) := fun _ => rfl

lemma keeps_throw (e : ε) : Keeps proj (throw e : EStateM ε σ α) := fun _ => rfl

lemma keeps_modify {f : σ → σ} (h : ∀ s, proj (f s) = proj s) :
    Keeps proj (modify f : EStateM ε σ PUnit) := h

lemma keeps_bind {x : EStateM ε σ α} {f : α → EStateM ε σ β} (hx : Keeps proj x)
    (hf : ∀ a, Keeps proj (f a)) : Keeps proj (x >>= f) := by
  intro s
  have hs := hx s
  rw [bind_apply]
  cases h : x s with
  | ok a s' => exact (hf a s').trans (by rwa [h] at hs)
  | error e s' => rwa [h] at hs

lemma keeps_ite {c : Prop} [Decidable c] {x y : EStateM ε σ α} (hx : Keeps proj x)
    (hy : Keeps proj y) : Keeps proj (if c then x else y) := by
  split
  · exact hx
  · exact hy

/-! ### What a program ensures -/

/-- From a state that satisfies `P` the program ends with a value and a state that satisfy
`Q`, or faults in a state that satisfies `E`. -/
def Triple (P : σ → Prop) (x : EStateM ε σ α) (Q : α → σ → Prop) (E : σ → Prop) : Prop :=
  ∀ s, P s → match x s with
    | .ok a s' => Q a s'
    | .error _ s' => E s'

/-- The program preserves an invariant, however it ends. -/
abbrev Maintains (I : σ → Prop) (x : EStateM ε σ α) : Prop := Triple I x (fun _ => I) I

variable {P R I E : σ → Prop} {Q Q' : α → σ → Prop} {x : EStateM ε σ α}

lemma Triple.of_ok (h : Triple P x Q E) {s s' : σ} {a : α} (hs : P s) (hx : x s = .ok a s') :
    Q a s' := by
  have := h s hs
  rwa [hx] at this

lemma Triple.mono (h : Triple P x Q E) (hP : ∀ s, R s → P s) (hQ : ∀ a s, Q a s → Q' a s) :
    Triple R x Q' E := by
  intro s hs
  have := h s (hP s hs)
  cases hx : x s with
  | ok a s' =>
    rw [hx] at this
    exact hQ a s' this
  | error e s' => rwa [hx] at this

/-- What a program ensures from all states it ensures from one of them. -/
lemma Triple.fromState (h : Triple P x Q E) {s : σ} (hs : P s) :
    Triple (fun s' => s' = s) x Q E := by
  rintro _ rfl
  exact h _ hs

/-- What is known of the faults may be weakened. -/
lemma Triple.weaken {E' : σ → Prop} (h : Triple P x Q E) (hE : ∀ s, E s → E' s) :
    Triple P x Q E' := by
  intro s hs
  have hrun := h s hs
  cases hx : x s with
  | ok a s' => rwa [hx] at hrun
  | error e s' =>
    rw [hx] at hrun
    exact hE s' hrun

/-- Of a program that ensures two things, both are ensured. -/
lemma Triple.and {P' E' : σ → Prop} (h : Triple P x Q E) (h' : Triple P' x Q' E') :
    Triple (fun s => P s ∧ P' s) x (fun a s => Q a s ∧ Q' a s) E := by
  intro s hs
  have hfirst := h s hs.1
  have hsecond := h' s hs.2
  cases hx : x s with
  | ok a s' =>
    rw [hx] at hfirst hsecond
    exact ⟨hfirst, hsecond⟩
  | error e s' => rwa [hx] at hfirst

lemma triple_pure {a : α} (h : ∀ s, P s → Q a s) : Triple P (pure a : EStateM ε σ α) Q E :=
  fun s hs => h s hs

lemma triple_throw {e : ε} (h : ∀ s, P s → E s) : Triple P (throw e : EStateM ε σ α) Q E :=
  fun s hs => h s hs

lemma triple_bind {Q' : β → σ → Prop} {f : α → EStateM ε σ β} (hx : Triple P x Q E)
    (hf : ∀ a, Triple (Q a) (f a) Q' E) : Triple P (x >>= f) Q' E := by
  intro s hs
  have hrun := hx s hs
  rw [bind_apply]
  cases h : x s with
  | ok a s' =>
    rw [h] at hrun
    exact hf a s' hrun
  | error e s' => rwa [h] at hrun

lemma triple_map {Q' : β → σ → Prop} {f : α → β} (hx : Triple P x (fun a => Q' (f a)) E) :
    Triple P (f <$> x) Q' E :=
  triple_bind (f := fun a => pure (f a)) hx fun _ => triple_pure fun _ h => h

lemma triple_ite {c : Prop} [Decidable c] {y : EStateM ε σ α} (hx : Triple P x Q E)
    (hy : Triple P y Q E) : Triple P (if c then x else y) Q E := by
  split
  · exact hx
  · exact hy

/-- What every round of a loop over a list maintains, the loop does. -/
lemma triple_forM {β : Type} {f : β → EStateM ε σ PUnit} (list : List β)
    (h : ∀ b ∈ list, Triple I (f b) (fun _ => I) E) : Triple I (list.forM f) (fun _ => I) E := by
  induction list with
  | nil => exact triple_pure fun _ hs => hs
  | cons b list ih =>
    change Triple I (f b >>= fun _ => list.forM f) _ E
    exact triple_bind (h b (by simp)) fun _ => ih fun b' hb' => h b' (by simp [hb'])

lemma triple_get_bind {f : σ → EStateM ε σ α}
    (h : ∀ s, P s → Triple (fun s' => s' = s) (f s) Q E) : Triple P (get >>= f) Q E :=
  fun s hs => h s hs s rfl

lemma triple_ofExcept_bind {Q' : β → σ → Prop} {y : Except ε α} {f : α → EStateM ε σ β}
    (h : ∀ a, y = .ok a → Triple P (f a) Q' E) (hE : ∀ s, P s → E s) :
    Triple P (ofExcept y >>= f) Q' E := by
  intro s hs
  cases y with
  | ok a => exact h a rfl s hs
  | error e => exact hE s hs

lemma triple_ofExcept {y : Except ε α} (h : ∀ a, y = .ok a → ∀ s, P s → Q a s)
    (hE : ∀ s, P s → E s) : Triple P (ofExcept y : EStateM ε σ α) Q E := by
  intro s hs
  cases y with
  | ok a => exact h a rfl s hs
  | error e => exact hE s hs

lemma maintains_pure (a : α) : Maintains I (pure a : EStateM ε σ α) := fun _ hs => hs

lemma maintains_get : Maintains I (get : EStateM ε σ σ) := fun _ hs => hs

lemma maintains_modify {f : σ → σ} (h : ∀ s, I s → I (f s)) :
    Maintains I (modify f : EStateM ε σ PUnit) := h

lemma maintains_ofExcept (x : Except ε α) : Maintains I (ofExcept x : EStateM ε σ α) := by
  intro s hs
  cases x <;> exact hs

lemma maintains_map {f : α → β} (h : Maintains I x) : Maintains I (f <$> x) := triple_map h

/-- A program that leaves alone what the invariant is about maintains it. -/
lemma Keeps.maintains (h : Keeps proj x) {p : γ → Prop} (hI : ∀ s, I s ↔ p (proj s)) :
    Maintains I x := by
  intro s hs
  have hproj := h s
  cases hx : x s with
  | ok a s' =>
    rw [hx, stateOf_ok] at hproj
    exact (hI s').mpr (hproj ▸ (hI s).mp hs)
  | error e s' =>
    rw [hx, stateOf_error] at hproj
    exact (hI s').mpr (hproj ▸ (hI s).mp hs)

end CLib
