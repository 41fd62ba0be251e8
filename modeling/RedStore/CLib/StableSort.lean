/-
Stable sorting by decreasing key, and bubble sort.

What a stable sort leaves behind is determined by what it was given: the elements in
decreasing order of their keys, those of one key in the order they had.  Bubble sort, which
moves one element at a time past those with a greater key, is such a sort.
-/
import Mathlib.Data.List.Pairwise
import Mathlib.Data.List.Perm.Basic
import Mathlib.Order.Lattice
import Mathlib.Tactic.Common

namespace CLib

variable {α β κ : Type} [LinearOrder κ]

/-- `sorted` holds the elements of `list` by decreasing key, those of one key in the order
they have in `list`. -/
structure StableSort (key : α → κ) (list sorted : List α) : Prop where
  perm : sorted.Perm list
  decreasing : sorted.Pairwise fun a b => key b ≤ key a
  stable : ∀ k, sorted.filter (key · = k) = list.filter (key · = k)

/-- Sorted lists with the same elements of each key, in the same order, are equal. -/
lemma eq_of_filter_key_eq {key : α → κ} {s t : List α}
    (hs : s.Pairwise fun a b => key b ≤ key a) (ht : t.Pairwise fun a b => key b ≤ key a)
    (h : ∀ k, s.filter (key · = k) = t.filter (key · = k)) : s = t := by
  have hmem : ∀ {s t : List α}, (∀ k, s.filter (key · = k) = t.filter (key · = k)) →
      ∀ x ∈ s, x ∈ t := by
    intro s t h x hx
    have hfilter : x ∈ t.filter (key · = key x) := h (key x) ▸ by simpa using hx
    exact (List.mem_filter.mp hfilter).1
  induction s generalizing t with
  | nil =>
    cases t with
    | nil => rfl
    | cons b t => exact absurd (hmem (fun k => (h k).symm) b (by simp)) (by simp)
  | cons a s ih =>
    cases t with
    | nil => exact absurd (hmem h a (by simp)) (by simp)
    | cons b t =>
      rw [List.pairwise_cons] at hs ht
      have hab : key a ≤ key b := by
        rcases List.mem_cons.mp (hmem h a (by simp)) with heq | ha
        · exact heq ▸ le_rfl
        · exact ht.1 a ha
      have hba : key b ≤ key a := by
        rcases List.mem_cons.mp (hmem (fun k => (h k).symm) b (by simp)) with heq | hb
        · exact heq ▸ le_rfl
        · exact hs.1 b hb
      -- the heads are the first elements of the greatest key
      have hkey : key a = key b := le_antisymm hab hba
      have hheads := h (key a)
      rw [List.filter_cons_of_pos (by simp), List.filter_cons_of_pos (by simp [hkey]),
        List.cons.injEq] at hheads
      obtain ⟨rfl, hrest⟩ := hheads
      congr 1
      refine ih hs.2 ht.2 fun k => ?_
      have hk := h k
      by_cases hka : key a = k
      · rwa [List.filter_cons_of_pos (by simpa using hka),
          List.filter_cons_of_pos (by simpa using hka), List.cons.injEq,
          and_iff_right rfl] at hk
      · rwa [List.filter_cons_of_neg (by simpa using hka),
          List.filter_cons_of_neg (by simpa using hka)] at hk

namespace StableSort

variable {key : α → κ} {list sorted sorted' rest : List α}

/-- There is one stable sort of a list. -/
lemma unique (h : StableSort key list sorted) (h' : StableSort key list sorted') :
    sorted = sorted' :=
  eq_of_filter_key_eq h.decreasing h'.decreasing fun k => (h.stable k).trans (h'.stable k).symm

/-- A list that is sorted is its own stable sort. -/
lemma refl (h : list.Pairwise fun a b => key b ≤ key a) : StableSort key list list :=
  ⟨List.Perm.refl _, h, fun _ => rfl⟩

/-- What was sorted before more was added is sorted as if it had not been. -/
lemma append (h : StableSort key list sorted) (h' : StableSort key (sorted ++ rest) sorted') :
    StableSort key (list ++ rest) sorted' := by
  refine ⟨h'.perm.trans (h.perm.append_right rest), h'.decreasing, fun k => ?_⟩
  rw [h'.stable, List.filter_append, List.filter_append, h.stable]

/-- Sorting by a key that goes through a function sorts the images. -/
lemma map {f : β → α} {list sorted : List β} (h : StableSort (key ∘ f) list sorted) :
    StableSort key (list.map f) (sorted.map f) := by
  refine ⟨h.perm.map f, List.pairwise_map.mpr h.decreasing, fun k => ?_⟩
  have hstable := congrArg (List.map f) (h.stable k)
  rw [List.filter_map, List.filter_map]
  exact hstable

end StableSort

/-! ### Bubble sort -/

section Bubble

variable (key : α → κ)

/-- One pass: `a` moves along as long as it is in front of a greater key, else the next
element takes its place. -/
def bubblePass (a : α) : List α → List α
  | [] => [a]
  | b :: rest => if key a < key b then b :: bubblePass a rest else a :: bubblePass b rest

/-- The passes: each leaves one more element at the end in its place. -/
def bubblePasses : ℕ → List α → List α
  | n + 1, first :: rest => bubblePasses n (bubblePass key first (rest.take n) ++ rest.drop n)
  | _, list => list

/-- Bubble sort. -/
def bubbleSort (list : List α) : List α := bubblePasses key list.length list

variable {key}

lemma bubblePass_perm (a : α) (list : List α) : (bubblePass key a list).Perm (a :: list) := by
  induction list generalizing a with
  | nil => exact List.Perm.refl _
  | cons b rest ih =>
    rw [bubblePass]
    split
    · exact ((ih a).cons b).trans (List.Perm.swap a b rest)
    · exact (ih b).cons a

/-- A pass leaves the elements of one key in their order. -/
lemma bubblePass_stable (a : α) (list : List α) (k : κ) :
    (bubblePass key a list).filter (key · = k) = (a :: list).filter (key · = k) := by
  induction list generalizing a with
  | nil => rfl
  | cons b rest ih =>
    rw [bubblePass]
    split
    · next hlt =>
      rw [List.filter_cons, ih a]
      -- two elements of different keys are not both left
      by_cases ha : key a = k
      · have hb : key b ≠ k := ha ▸ hlt.ne'
        simp [ha, hb]
      · simp [List.filter_cons, ha]
    · simp only [List.filter_cons, ih b]

/-- A pass ends with an element of the least key. -/
lemma bubblePass_last (a : α) (list : List α) : ∃ front last,
    bubblePass key a list = front ++ [last] ∧ ∀ x ∈ a :: list, key last ≤ key x := by
  induction list generalizing a with
  | nil => exact ⟨[], a, rfl, by simp⟩
  | cons b rest ih =>
    rw [bubblePass]
    split
    · next hlt =>
      obtain ⟨front, last, heq, hlast⟩ := ih a
      refine ⟨b :: front, last, by rw [heq, List.cons_append], ?_⟩
      rw [List.forall_mem_cons] at hlast
      rw [List.forall_mem_cons, List.forall_mem_cons]
      exact ⟨hlast.1, hlast.1.trans hlt.le, hlast.2⟩
    · next hge =>
      obtain ⟨front, last, heq, hlast⟩ := ih b
      refine ⟨a :: front, last, by rw [heq, List.cons_append], ?_⟩
      rw [List.forall_mem_cons] at hlast
      rw [List.forall_mem_cons, List.forall_mem_cons]
      exact ⟨hlast.1.trans (not_lt.mp hge), hlast.1, hlast.2⟩

@[simp] lemma length_bubblePass (a : α) (list : List α) :
    (bubblePass key a list).length = list.length + 1 := (bubblePass_perm a list).length_eq

/-- The elements from `n` on are in place: in decreasing order, and none greater than one in
front of them. -/
structure InPlace (key : α → κ) (n : ℕ) (list : List α) : Prop where
  behind : (list.drop n).Pairwise fun a b => key b ≤ key a
  least : ∀ x ∈ list.take n, ∀ y ∈ list.drop n, key y ≤ key x

/-- A pass puts one more element in place. -/
lemma InPlace.pass {n : ℕ} {first : α} {rest : List α} (hn : n ≤ rest.length)
    (h : InPlace key (n + 1) (first :: rest)) :
    InPlace key n (bubblePass key first (rest.take n) ++ rest.drop n) := by
  obtain ⟨front, last, heq, hlast⟩ : ∃ front last,
      bubblePass key first (rest.take n) = front ++ [last] ∧
        ∀ x ∈ first :: rest.take n, key last ≤ key x := bubblePass_last first (rest.take n)
  have hlength : front.length = n := by
    have hpass := congrArg List.length heq
    rw [length_bubblePass, List.length_take, min_eq_left hn, List.length_append,
      List.length_singleton] at hpass
    omega
  have hperm : (front ++ [last]).Perm (first :: rest.take n) := heq ▸ bubblePass_perm _ _
  have hmem : ∀ x ∈ front ++ [last], x ∈ first :: rest.take n := fun x hx => hperm.mem_iff.mp hx
  obtain ⟨hbehind, hleast⟩ := h
  rw [List.drop_succ_cons, List.take_succ_cons] at hleast
  rw [List.drop_succ_cons] at hbehind
  rw [heq, List.append_assoc, List.singleton_append]
  refine ⟨?_, ?_⟩
  · rw [← hlength, List.drop_left, hlength, List.pairwise_cons]
    exact ⟨hleast last (hmem last (by simp)), hbehind⟩
  · rw [← hlength, List.take_left, List.drop_left, hlength]
    intro x hx y hy
    rcases List.mem_cons.mp hy with rfl | hy
    · exact hlast x (hmem x (by simp [hx]))
    · exact hleast x (hmem x (by simp [hx])) y hy

/-- The passes sort what is not in place yet. -/
lemma stableSort_bubblePasses {n : ℕ} {list : List α} (hn : n ≤ list.length)
    (h : InPlace key n list) : StableSort key list (bubblePasses key n list) := by
  induction n generalizing list with
  | zero =>
    have hnil : bubblePasses key 0 list = list := by cases list <;> rfl
    rw [hnil]
    exact StableSort.refl h.behind
  | succ n ih =>
    cases list with
    | nil => exact absurd hn (by simp)
    | cons first rest =>
      rw [List.length_cons] at hn
      have hlength : n ≤ (bubblePass key first (rest.take n) ++ rest.drop n).length := by
        rw [List.length_append, length_bubblePass, List.length_take, List.length_drop]
        omega
      have hpass := ih hlength (h.pass (by omega))
      rw [bubblePasses]
      refine ⟨hpass.perm.trans ?_, hpass.decreasing, fun k => (hpass.stable k).trans ?_⟩
      · rw [← List.take_append_drop n rest]
        simpa using (bubblePass_perm first (rest.take n)).append_right (rest.drop n)
      · rw [List.filter_append, bubblePass_stable, ← List.filter_append, List.cons_append,
          List.take_append_drop]

/-- Bubble sort is a stable sort. -/
theorem stableSort_bubbleSort (list : List α) : StableSort key list (bubbleSort key list) :=
  stableSort_bubblePasses le_rfl ⟨by simp, by simp⟩

end Bubble

end CLib
