/-
Singly linked lists in memory.

The links are a function from nodes to the next node, `none` for NULL.  A chain is what a
walk along the links meets; a list that ends with NULL meets no node twice, so that relinking
a node of it changes one place of the walk only.  Two neighbours of a list are swapped by
relinking them and the one in front of them.
-/
import Mathlib.Data.List.Nodup
import Mathlib.Logic.Function.Basic
import Mathlib.Tactic.Common

namespace CLib

variable {ν : Type}

/-- From `p` the links lead through `nodes` to `e`. -/
def Chain (next : ν → Option ν) : Option ν → List ν → Option ν → Prop
  | p, [], e => p = e
  | p, a :: nodes, e => p = some a ∧ Chain next (next a) nodes e

section Walk

variable {next next' : ν → Option ν} {p e : Option ν} {a : ν} {l l' : List ν}

@[simp] lemma chain_nil : Chain next p [] e ↔ p = e := Iff.rfl

@[simp] lemma chain_cons : Chain next p (a :: l) e ↔ p = some a ∧ Chain next (next a) l e := Iff.rfl

lemma chain_append : Chain next p (l ++ l') e ↔ ∃ q, Chain next p l q ∧ Chain next q l' e := by
  induction l generalizing p with
  | nil => simp
  | cons a l ih => simp [ih, and_assoc]

lemma chain_concat : Chain next p (l ++ [a]) e ↔ Chain next p l (some a) ∧ next a = e := by
  simp [chain_append]

/-- A walk depends on the links of the nodes that it leaves. -/
lemma Chain.congr (h : ∀ n ∈ l, next' n = next n) (hchain : Chain next p l e) :
    Chain next' p l e := by
  induction l generalizing p with
  | nil => exact hchain
  | cons a l ih =>
    refine ⟨hchain.1, ?_⟩
    rw [h a (by simp)]
    exact ih (fun n hn => h n (by simp [hn])) hchain.2

lemma Chain.head (h : Chain next p l none) : p = l.head? := by
  cases l with
  | nil => exact h
  | cons a l => exact h.1

lemma Chain.next_eq {front : List ν} (h : Chain next p (front ++ a :: l) none) :
    next a = l.head? := by
  obtain ⟨q, -, -, hrest⟩ := chain_append.mp h
  exact hrest.head

/-- The nodes of a list are determined by its start. -/
lemma Chain.unique (h : Chain next p l none) (h' : Chain next p l' none) : l = l' := by
  induction l generalizing p l' with
  | nil =>
    cases l' with
    | nil => rfl
    | cons a l' => simp [chain_nil.mp h] at h'
  | cons a l ih =>
    cases l' with
    | nil => simp [h.1] at h'
    | cons a' l' =>
      obtain rfl : a = a' := Option.some.inj (h.1.symm.trans h'.1)
      rw [ih h.2 h'.2]

/-- A list meets no node twice. -/
lemma Chain.nodup (h : Chain next p l none) : l.Nodup := by
  induction l generalizing p with
  | nil => exact List.nodup_nil
  | cons a l ih =>
    rw [List.nodup_cons]
    refine ⟨fun hmem => ?_, ih h.2⟩
    -- from the second time on the walk would be the one from the first time on
    obtain ⟨front, rest, rfl⟩ := List.append_of_mem hmem
    obtain ⟨q, -, hq, hrest⟩ := chain_append.mp h.2
    have hsame := congrArg List.length (h.2.unique hrest)
    simp only [List.length_append, List.length_cons] at hsame
    omega

end Walk

section Relink

variable [DecidableEq ν] {next : ν → Option ν} {p e : Option ν} {a b c n : ν}
  {l front rest : List ν}

lemma Chain.update (h : Chain next p l e) (hn : n ∉ l) (q : Option ν) :
    Chain (Function.update next n q) p l e := by
  refine Chain.congr (fun m hm => ?_) h
  rw [Function.update_of_ne]
  rintro rfl
  exact hn hm

/-- The links once `b`, which followed `a`, has come in front of it. -/
def swapLinks (next : ν → Option ν) (a b : ν) : ν → Option ν :=
  Function.update (Function.update next b (some a)) a (next b)

lemma swapLinks_of_ne (ha : n ≠ a) (hb : n ≠ b) : swapLinks next a b n = next n := by
  rw [swapLinks, Function.update_of_ne ha, Function.update_of_ne hb]

/-- The second node of a stretch has come in front of the first. -/
lemma Chain.swap (h : Chain next p (a :: b :: rest) none) :
    Chain (swapLinks next a b) (some b) (b :: a :: rest) none := by
  have hnodup := h.nodup
  simp only [List.nodup_cons, List.mem_cons, not_or] at hnodup
  obtain ⟨⟨hab, ha⟩, hb, -⟩ := hnodup
  have hba : swapLinks next a b b = some a := by
    rw [swapLinks, Function.update_of_ne (Ne.symm hab), Function.update_self]
  have haa : swapLinks next a b a = next b := by rw [swapLinks, Function.update_self]
  refine ⟨rfl, hba, ?_⟩
  rw [haa]
  exact (h.2.2.update hb (some a)).update ha (next b)

/-- Behind a node that is linked to the second one, too. -/
lemma Chain.swap_behind (h : Chain next p (front ++ c :: a :: b :: rest) none) :
    Chain (Function.update (swapLinks next a b) c (some b)) p (front ++ c :: b :: a :: rest)
      none := by
  have hnodup := h.nodup
  rw [List.nodup_append] at hnodup
  obtain ⟨-, hbehind, hapart⟩ := hnodup
  simp only [List.nodup_cons, List.mem_cons, not_or] at hbehind
  obtain ⟨⟨hca, hcb, hc⟩, -⟩ := hbehind
  obtain ⟨q, hfront, hq, hrest⟩ := chain_append.mp h
  refine chain_append.mpr ⟨q, ?_, hq, ?_⟩
  · refine Chain.congr (fun m hm => ?_) hfront
    have hmc : m ≠ c := hapart m hm c (by simp)
    rw [Function.update_of_ne hmc,
      swapLinks_of_ne (hapart m hm a (by simp)) (hapart m hm b (by simp))]
  · rw [Function.update_self]
    exact hrest.swap.update (by simp [hca, hcb, hc]) (some b)

/-- A node is linked to the end of a list. -/
lemma Chain.link_last (h : Chain next p (front ++ [a]) none) (hn : n ∉ front ++ [a])
    (hnext : next n = none) :
    Chain (Function.update next a (some n)) p (front ++ [a] ++ [n]) none := by
  have hnodup := h.nodup
  rw [List.nodup_append] at hnodup
  have hfront : a ∉ front := fun ha => hnodup.2.2 a ha a (by simp) rfl
  have hna : n ≠ a := fun heq => hn (by simp [heq])
  rw [chain_concat] at h
  rw [List.append_assoc, List.singleton_append]
  refine chain_append.mpr ⟨some a, h.1.update hfront (some n), rfl, ?_⟩
  rw [Function.update_self]
  exact ⟨rfl, by rw [Function.update_of_ne hna, hnext]; rfl⟩

end Relink

end CLib
