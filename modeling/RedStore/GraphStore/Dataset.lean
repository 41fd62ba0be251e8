/-
Datasets: sets of triples, each in a named graph or in the graph without a name.

A dataset is the same thing as a map from graphs to sets of triples, its `content`; what
the operations do is said by what they do to the content of each graph.
-/
import Mathlib.Data.Set.Basic
import Mathlib.Data.Set.Lattice

namespace Dataset

variable {T G : Type}

/-- The triples of a graph. -/
def content (d : Set (T × Option G)) (g : Option G) : Set T := {t | (t, g) ∈ d}

/-- Triples added to a graph. -/
def add (d : Set (T × Option G)) (g : Option G) (ts : Set T) : Set (T × Option G) :=
  d ∪ {q | q.1 ∈ ts ∧ q.2 = g}

/-- Triples removed from a graph. -/
def remove (d : Set (T × Option G)) (g : Option G) (ts : Set T) : Set (T × Option G) :=
  {q ∈ d | ¬ (q.1 ∈ ts ∧ q.2 = g)}

/-- A graph emptied. -/
def clear (d : Set (T × Option G)) (g : Option G) : Set (T × Option G) := {q ∈ d | q.2 ≠ g}

/-- A graph given other triples. -/
def replace (d : Set (T × Option G)) (g : Option G) (ts : Set T) : Set (T × Option G) :=
  add (clear d g) g ts

variable {d d' : Set (T × Option G)} {g h : Option G} {ts us : Set T} {t : T}

@[simp] lemma mem_content : t ∈ content d g ↔ (t, g) ∈ d := Iff.rfl

@[simp] lemma mem_add {q : T × Option G} : q ∈ add d g ts ↔ q ∈ d ∨ q.1 ∈ ts ∧ q.2 = g := Iff.rfl

@[simp] lemma mem_remove {q : T × Option G} :
    q ∈ remove d g ts ↔ q ∈ d ∧ ¬ (q.1 ∈ ts ∧ q.2 = g) := Iff.rfl

@[simp] lemma mem_clear {q : T × Option G} : q ∈ clear d g ↔ q ∈ d ∧ q.2 ≠ g := Iff.rfl

/-! ### The graph that is changed -/

lemma content_add_self : content (add d g ts) g = content d g ∪ ts := by
  ext t
  simp

lemma content_clear_self : content (clear d g) g = ∅ := by
  ext t
  simp

lemma content_replace_self : content (replace d g ts) g = ts := by
  rw [replace, content_add_self, content_clear_self, Set.empty_union]

/-- An addition leaves the other graphs. -/
lemma content_add_of_ne (hne : h ≠ g) : content (add d g ts) h = content d h := by
  ext t
  simp [hne]

/-! ### Operations one after the other -/

@[simp] lemma add_empty : add d g ∅ = d := by
  ext q
  simp

@[simp] lemma remove_empty : remove d g ∅ = d := by
  ext q
  simp

lemma remove_remove : remove (remove d g ts) g us = remove d g (ts ∪ us) := by
  ext q
  simp only [mem_remove, Set.mem_union]
  tauto

end Dataset
