/-
Ordered multimaps: lists of entries, of which the first with a key is the one that counts.

Two keys are the same if `fold` makes the same of them; the spelling of a key is kept with its
entry.  Assigning a value changes that first entry, or appends one if there is none.
-/
import Mathlib.Data.List.Basic
import Mathlib.Tactic.Common

namespace Multimap

variable {K C V : Type} (fold : K → C)

/-- There is an entry with a key. -/
def Has (m : List (K × V)) (k : K) : Prop := ∃ e ∈ m, fold k = fold e.1

@[simp] lemma not_has_nil {k : K} : ¬ Has fold ([] : List (K × V)) k := by simp [Has]

@[simp] lemma has_cons {e : K × V} {m : List (K × V)} {k : K} :
    Has fold (e :: m) k ↔ fold k = fold e.1 ∨ Has fold m k := by simp [Has]

variable [DecidableEq C]

/-- The value of the first entry with a key. -/
def lookup (m : List (K × V)) (k : K) : Option V :=
  (m.find? fun e => fold k = fold e.1).map Prod.snd

/-- A value given to a key. -/
def assign (k : K) (v : V) : List (K × V) → List (K × V)
  | [] => [(k, v)]
  | e :: m => if fold k = fold e.1 then (e.1, v) :: m else e :: assign k v m

variable {fold} {m m' : List (K × V)} {k k' : K} {v : V} {e : K × V}

@[simp] lemma lookup_nil : lookup fold ([] : List (K × V)) k = none := rfl

lemma lookup_cons :
    lookup fold (e :: m) k = if fold k = fold e.1 then some e.2 else lookup fold m k := by
  rw [lookup, List.find?_cons]
  by_cases h : fold k = fold e.1 <;> simp [h, lookup]

/-- Only keys that are there have a value. -/
lemma has_iff : Has fold m k ↔ ∃ v, lookup fold m k = some v := by
  induction m with
  | nil => simp
  | cons e m ih =>
    rw [has_cons, lookup_cons, ih]
    by_cases h : fold k = fold e.1 <;> simp [h]

/-! ### Appending -/

lemma lookup_append_of_has (h : Has fold m k) : lookup fold (m ++ m') k = lookup fold m k := by
  induction m with
  | nil => exact absurd h (not_has_nil fold)
  | cons e m ih =>
    rw [List.cons_append, lookup_cons, lookup_cons]
    by_cases hk : fold k = fold e.1
    · rw [if_pos hk, if_pos hk]
    · rw [if_neg hk, if_neg hk, ih (((has_cons fold).mp h).resolve_left hk)]

/-! ### Assigning -/

lemma assign_of_not_has (h : ¬ Has fold m k) : assign fold k v m = m ++ [(k, v)] := by
  induction m with
  | nil => rfl
  | cons e m ih =>
    rw [has_cons, not_or] at h
    rw [assign, if_neg h.1, ih h.2, List.cons_append]

/-- The keys of the entries stay as they are spelled. -/
lemma keys_assign_of_has (h : Has fold m k) :
    (assign fold k v m).map Prod.fst = m.map Prod.fst := by
  induction m with
  | nil => exact absurd h (not_has_nil fold)
  | cons e m ih =>
    rw [assign]
    by_cases hk : fold k = fold e.1
    · rw [if_pos hk, List.map_cons, List.map_cons]
    · rw [if_neg hk, List.map_cons, ih (((has_cons fold).mp h).resolve_left hk), List.map_cons]

lemma lookup_assign_of_eq (h : fold k' = fold k) :
    lookup fold (assign fold k v m) k' = some v := by
  induction m with
  | nil => rw [assign, lookup_cons, if_pos h]
  | cons e m ih =>
    rw [assign]
    by_cases hk : fold k = fold e.1
    · rw [if_pos hk, lookup_cons, if_pos (h.trans hk)]
    · rw [if_neg hk, lookup_cons, if_neg fun hk' => hk (h.symm.trans hk'), ih]

lemma lookup_assign_of_ne (h : fold k' ≠ fold k) :
    lookup fold (assign fold k v m) k' = lookup fold m k' := by
  induction m with
  | nil => rw [assign, lookup_cons, if_neg h]
  | cons e m ih =>
    rw [assign]
    by_cases hk : fold k = fold e.1
    · have hk' : fold k' ≠ fold e.1 := fun heq => h (heq.trans hk.symm)
      rw [if_pos hk, lookup_cons, lookup_cons, if_neg hk', if_neg hk']
    · rw [if_neg hk, lookup_cons, lookup_cons, ih]

lemma has_assign_of_ne (h : fold k' ≠ fold k) : Has fold (assign fold k v m) k' ↔ Has fold m k' := by
  rw [has_iff, has_iff, lookup_assign_of_ne h]

end Multimap
