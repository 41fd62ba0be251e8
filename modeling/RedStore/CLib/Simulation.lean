/-
Simulation of one machine by another.

Both machines answer requests, possibly in more than one way; a run answers a list of
requests one after the other.  If every answer of the first stands for one of the second from
the abstract state, then so do the answers of every run.
-/
import Mathlib.Tactic.Common

namespace CLib

variable {S A ι ω κ ο : Type}

/-- A list of requests answered one after the other. -/
inductive Run (step : S → ι → S → ω → Prop) : S → List ι → S → List ω → Prop where
  | nil (s : S) : Run step s [] s []
  | cons {s s' s'' : S} {i : ι} {is : List ι} {o : ω} {os : List ω} (h : step s i s' o)
    (hs : Run step s' is s'' os) : Run step s (i :: is) s'' (o :: os)

/-- One step of the first machine is one of the second, for a request and an answer that stand
for those of the second. -/
def Simulates (abs : S → A) (request : ι → κ → Prop) (answer : ω → ο → Prop)
    (step : S → ι → S → ω → Prop) (astep : A → κ → A → ο → Prop) : Prop :=
  ∀ ⦃s i k s' o⦄, request i k → step s i s' o → ∃ p, answer o p ∧ astep (abs s) k (abs s') p

variable {abs : S → A} {request : ι → κ → Prop} {answer : ω → ο → Prop}
  {step : S → ι → S → ω → Prop} {astep : A → κ → A → ο → Prop}

/-- What holds of the steps holds of the runs. -/
theorem Simulates.run (h : Simulates abs request answer step astep) {s s' : S} {is : List ι}
    {ks : List κ} {os : List ω} (hrequests : List.Forall₂ request is ks)
    (hrun : Run step s is s' os) :
    ∃ ps, List.Forall₂ answer os ps ∧ Run astep (abs s) ks (abs s') ps := by
  induction hrun generalizing ks with
  | nil s =>
    cases hrequests
    exact ⟨[], .nil, .nil _⟩
  | cons hstep _ ih =>
    cases hrequests with
    | cons hrequest hrequests =>
      obtain ⟨p, hanswer, hastep⟩ := h hrequest hstep
      obtain ⟨ps, hanswers, hruns⟩ := ih hrequests
      exact ⟨p :: ps, .cons hanswer hanswers, .cons hastep hruns⟩

/-- A machine that always has an answer has a run for every list of requests. -/
lemma Run.exists_of_total (htotal : ∀ {i k}, request i k → ∀ s, ∃ s' o, step s i s' o)
    {is : List ι} {ks : List κ} (hrequests : List.Forall₂ request is ks) (s : S) :
    ∃ s' os, Run step s is s' os := by
  induction hrequests generalizing s with
  | nil => exact ⟨s, [], .nil s⟩
  | cons hrequest _ ih =>
    obtain ⟨s', o, hstep⟩ := htotal hrequest s
    obtain ⟨s'', os, hrun⟩ := ih s'
    exact ⟨s'', o :: os, .cons hstep hrun⟩

end CLib
