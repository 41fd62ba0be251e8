/-
Two runs side by side.

Two programs agree up to a relation of their states if, from related states, they come to the
same value or to the same fault, and to related states again.  A program that agrees with
itself up to a relation depends on nothing that the relation leaves open; if the relation says
something of each of its states, the program preserves that, too.
-/
import RedStore.CLib.Command

namespace CLib

variable {ε σ α β : Type}

/-- Two runs have ended alike. -/
def EndAlike (R : σ → σ → Prop) : EStateM.Result ε σ α → EStateM.Result ε σ α → Prop
  | .ok a s, .ok b t => a = b ∧ R s t
  | .error e s, .error e' t => e = e' ∧ R s t
  | _, _ => False

/-- From related states both programs end alike. -/
def Agree (R : σ → σ → Prop) (x y : EStateM ε σ α) : Prop :=
  ∀ s t, R s t → EndAlike R (x s) (y t)

variable {R R' : σ → σ → Prop} {x y : EStateM ε σ α} {f g : α → EStateM ε σ β}

lemma EndAlike.ok {p q : EStateM.Result ε σ α} (h : EndAlike R p q) {a : α} {s : σ}
    (hp : p = .ok a s) : ∃ t, q = .ok a t ∧ R s t := by
  subst hp
  cases q with
  | ok b t =>
    obtain ⟨rfl, hst⟩ := h
    exact ⟨t, rfl, hst⟩
  | error e t => exact h.elim

lemma agree_pure (a : α) : Agree R (pure a : EStateM ε σ α) (pure a) := fun _ _ h => ⟨rfl, h⟩

lemma agree_throw (e : ε) : Agree R (throw e : EStateM ε σ α) (throw e) := fun _ _ h => ⟨rfl, h⟩

lemma agree_ofExcept (r : Except ε α) : Agree R (ofExcept r : EStateM ε σ α) (ofExcept r) := by
  cases r with
  | ok a => exact agree_pure a
  | error e => exact agree_throw e

lemma agree_modify {u v : σ → σ} (h : ∀ s t, R s t → R (u s) (v t)) :
    Agree R (modify u : EStateM ε σ PUnit) (modify v) := fun s t hst => ⟨rfl, h s t hst⟩

/-- Two runs that have ended alike are continued; the second relation is implied by the first. -/
lemma EndAlike.bind {s t : σ} (hends : EndAlike R (x s) (y t)) (hR : ∀ s' t', R s' t' → R' s' t')
    (hf : ∀ a s' t', R s' t' → EndAlike R' (f a s') (g a t')) :
    EndAlike R' ((x >>= f) s) ((y >>= g) t) := by
  rw [bind_apply, bind_apply]
  cases hs : x s with
  | ok a s' =>
    obtain ⟨t', ht, hst'⟩ := hends.ok hs
    rw [ht]
    exact hf a s' t' hst'
  | error e s' =>
    cases ht : y t with
    | ok b t' =>
      rw [hs, ht] at hends
      exact hends.elim
    | error e' t' =>
      rw [hs, ht] at hends
      exact ⟨hends.1, hR s' t' hends.2⟩

lemma agree_bind (hx : Agree R x y) (hf : ∀ a, Agree R (f a) (g a)) :
    Agree R (x >>= f) (y >>= g) := fun s t hst =>
  (hx s t hst).bind (fun _ _ h => h) fun a s' t' hst' => hf a s' t' hst'

lemma agree_map {h : α → β} (hx : Agree R x y) : Agree R (h <$> x) (h <$> y) :=
  agree_bind (f := fun a => pure (h a)) (g := fun a => pure (h a)) hx fun a => agree_pure (h a)

/-- Programs that read the state agree if they do so behind all that is related. -/
lemma agree_get_bind {f g : σ → EStateM ε σ β} (h : ∀ s t, R s t → Agree R (f s) (g t)) :
    Agree R (get >>= f) (get >>= g) := fun s t hst => h s t hst s t hst

lemma agree_ite {c : Prop} [Decidable c] {x' y' : EStateM ε σ α} (hx : Agree R x y)
    (hx' : Agree R x' y') : Agree R (if c then x else x') (if c then y else y') := by
  split
  · exact hx
  · exact hx'

end CLib
