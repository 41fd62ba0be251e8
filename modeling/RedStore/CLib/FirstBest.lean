/-
The first best element of a list.

`List.argmax` of the library is what a loop computes that replaces the best element so far by
each one that is better.  Nested loops do the same over the list of everything that the inner
loop looks at.
-/
import Mathlib.Data.List.MinMax
import Mathlib.Data.Int.Order.Basic

namespace CLib

variable {α β γ κ : Type} [LinearOrder κ] {f : α → κ} {l l' : List α} {m : α}

/-- `m` is the first of the elements of the list with the greatest value. -/
def FirstBest (f : α → κ) (l : List α) (m : α) : Prop :=
  ∃ front rest, l = front ++ m :: rest ∧ (∀ x ∈ front, f x < f m) ∧ ∀ x ∈ rest, f x ≤ f m

lemma FirstBest.mem (h : FirstBest f l m) : m ∈ l := by
  obtain ⟨front, rest, rfl, -, -⟩ := h
  simp

lemma FirstBest.le (h : FirstBest f l m) : ∀ x ∈ l, f x ≤ f m := by
  obtain ⟨front, rest, rfl, hfront, hrest⟩ := h
  intro x hx
  rcases List.mem_append.mp hx with hx | hx
  · exact (hfront x hx).le
  · rcases List.mem_cons.mp hx with rfl | hx
    · exact le_rfl
    · exact hrest x hx

lemma firstBest_cons {a : α} : FirstBest f (a :: l) m ↔
    (m = a ∧ ∀ x ∈ l, f x ≤ f m) ∨ (FirstBest f l m ∧ f a < f m) := by
  constructor
  · rintro ⟨front, rest, heq, hfront, hrest⟩
    cases front with
    | nil =>
      obtain ⟨rfl, rfl⟩ := List.cons.inj heq
      exact Or.inl ⟨rfl, hrest⟩
    | cons b front =>
      obtain ⟨rfl, rfl⟩ := List.cons.inj heq
      rw [List.forall_mem_cons] at hfront
      exact Or.inr ⟨⟨front, rest, rfl, hfront.2, hrest⟩, hfront.1⟩
  · rintro (⟨rfl, h⟩ | ⟨⟨front, rest, rfl, hfront, hrest⟩, ha⟩)
    · exact ⟨[], l, rfl, by simp, h⟩
    · exact ⟨a :: front, rest, rfl, List.forall_mem_cons.mpr ⟨ha, hfront⟩, hrest⟩

lemma argmax_eq_some_iff_firstBest : l.argmax f = some m ↔ FirstBest f l m := by
  induction l generalizing m with
  | nil => simp [FirstBest]
  | cons a l ih =>
    rw [List.argmax_cons, firstBest_cons]
    cases hl : l.argmax f with
    | none =>
      rw [List.argmax_eq_none] at hl
      subst hl
      simp [FirstBest, eq_comm]
    | some b =>
      have hb : FirstBest f l b := ih.mp hl
      have hunique : FirstBest f l m → m = b := fun h => by
        have := ih.mpr h
        rw [hl] at this
        exact (Option.some.inj this).symm
      show (if f a < f b then some b else some a) = some m ↔ _
      split
      · next hlt =>
        rw [Option.some.injEq]
        constructor
        · rintro rfl
          exact Or.inr ⟨hb, hlt⟩
        · rintro (⟨rfl, h⟩ | ⟨h, -⟩)
          · exact absurd (h b hb.mem) (not_le.mpr hlt)
          · exact (hunique h).symm
      · next hge =>
        rw [Option.some.injEq]
        constructor
        · rintro rfl
          exact Or.inl ⟨rfl, fun x hx => (hb.le x hx).trans (not_lt.mp hge)⟩
        · rintro (⟨rfl, -⟩ | ⟨h, hlt⟩)
          · rfl
          · exact absurd (hunique h ▸ hlt) hge

lemma firstBest_append : FirstBest f (l ++ l') m ↔
    (FirstBest f l m ∧ ∀ x ∈ l', f x ≤ f m) ∨ (FirstBest f l' m ∧ ∀ x ∈ l, f x < f m) := by
  induction l with
  | nil => simp [FirstBest]
  | cons a l ih =>
    rw [List.cons_append, firstBest_cons, firstBest_cons, ih, List.forall_mem_append,
      List.forall_mem_cons]
    tauto

/-- The best of two lists, by the best of each. -/
lemma argmax_append_of_some {a b : α} (ha : l.argmax f = some a) (hb : l'.argmax f = some b) :
    (l ++ l').argmax f = if f a < f b then some b else some a := by
  rw [argmax_eq_some_iff_firstBest] at ha hb
  split
  · next hlt =>
    exact argmax_eq_some_iff_firstBest.mpr (firstBest_append.mpr
      (Or.inr ⟨hb, fun x hx => (ha.le x hx).trans_lt hlt⟩))
  · next hge =>
    exact argmax_eq_some_iff_firstBest.mpr (firstBest_append.mpr
      (Or.inl ⟨ha, fun x hx => (hb.le x hx).trans (not_lt.mp hge)⟩))

lemma firstBest_map {g : γ → α} {l : List γ} :
    FirstBest f (l.map g) m ↔ ∃ c, FirstBest (f ∘ g) l c ∧ g c = m := by
  induction l with
  | nil => simp [FirstBest]
  | cons a l ih =>
    rw [List.map_cons, firstBest_cons, ih, List.forall_mem_map]
    constructor
    · rintro (⟨rfl, h⟩ | ⟨⟨c, hc, rfl⟩, hlt⟩)
      · exact ⟨a, firstBest_cons.mpr (Or.inl ⟨rfl, h⟩), rfl⟩
      · exact ⟨c, firstBest_cons.mpr (Or.inr ⟨hc, hlt⟩), rfl⟩
    · rintro ⟨c, hc, rfl⟩
      rcases firstBest_cons.mp hc with ⟨rfl, h⟩ | ⟨hc, hlt⟩
      · exact Or.inl ⟨rfl, h⟩
      · exact Or.inr ⟨⟨c, hc, rfl⟩, hlt⟩

lemma argmax_map (g : γ → α) (l : List γ) :
    (l.map g).argmax f = (l.argmax (f ∘ g)).map g := by
  cases h : l.argmax (f ∘ g) with
  | none => simp [List.argmax_eq_none.mp h]
  | some c =>
    rw [argmax_eq_some_iff_firstBest] at h
    exact argmax_eq_some_iff_firstBest.mpr (firstBest_map.mpr ⟨c, h, rfl⟩)

/-- The best of some lists one behind the other is that of the first list which has one. -/
lemma firstBest_flatMap {g : γ → List α} {l : List γ} : FirstBest f (l.flatMap g) m ↔
    ∃ front a rest, l = front ++ a :: rest ∧ FirstBest f (g a) m ∧
      (∀ c ∈ front, ∀ x ∈ g c, f x < f m) ∧ ∀ c ∈ rest, ∀ x ∈ g c, f x ≤ f m := by
  induction l with
  | nil => simp [FirstBest]
  | cons a l ih =>
    rw [List.flatMap_cons, firstBest_append, ih]
    constructor
    · rintro (⟨h, hrest⟩ | ⟨⟨front, b, rest, rfl, hb, hfront, hrest⟩, ha⟩)
      · exact ⟨[], a, l, rfl, h, by simp, fun c hc x hx => hrest x (List.mem_flatMap.mpr ⟨c, hc, hx⟩)⟩
      · exact ⟨a :: front, b, rest, rfl, hb, List.forall_mem_cons.mpr ⟨ha, hfront⟩, hrest⟩
    · rintro ⟨front, b, rest, heq, hb, hfront, hrest⟩
      cases front with
      | nil =>
        obtain ⟨rfl, rfl⟩ := List.cons.inj heq
        refine Or.inl ⟨hb, fun x hx => ?_⟩
        obtain ⟨c, hc, hx⟩ := List.mem_flatMap.mp hx
        exact hrest c hc x hx
      | cons c front =>
        obtain ⟨rfl, rfl⟩ := List.cons.inj heq
        rw [List.forall_mem_cons] at hfront
        exact Or.inr ⟨⟨front, b, rest, rfl, hb, hfront.2, hrest⟩, hfront.1⟩

/-- The loop that keeps the best element so far, in a record with its score. -/
lemma foldl_keep_best (score : β → ℤ) (make : α → β) (start : β) (f : α → ℕ)
    (hmake : ∀ x, score (make x) = f x) (hstart : score start < 0) (l : List α) :
    l.foldl (fun best x => if score best < f x then make x else best) start =
      (l.argmax f).elim start make := by
  induction l using List.reverseRecOn with
  | nil => rfl
  | append_singleton l a ih =>
    rw [List.foldl_append, List.foldl_cons, List.foldl_nil, ih, List.argmax_concat]
    cases l.argmax f with
    | none =>
      have hlt : score start < f a := by omega
      simp [hlt]
    | some b =>
      simp only [Option.elim_some, hmake, Int.ofNat_lt]
      split <;> rfl

end CLib
