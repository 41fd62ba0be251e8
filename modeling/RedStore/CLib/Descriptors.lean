/-
The descriptors of a process.

A program shares its descriptors with the libraries that it calls.  A new descriptor is the
lowest number that is free, so that a number comes back once it has been closed; a second
`close` of it is harmless only as long as nobody has been given the number again.
-/
import Mathlib.Data.Finset.Card
import Mathlib.Data.Finset.SDiff

namespace CLib

/-- The open descriptors: those of the program and those of its libraries. -/
structure Descriptors where
  own : Finset ℕ
  library : Finset ℕ
  disjoint : Disjoint own library

namespace Descriptors

variable (d : Descriptors) {fd : ℕ}

/-- All that are open. -/
def all : Finset ℕ := d.own ∪ d.library

/-- The lowest number that is free; one of `card + 1` numbers is. -/
def lowest : ℕ := ((List.range (d.all.card + 1)).find? (· ∉ d.all)).getD d.all.card

lemma exists_free : ∃ n ∈ List.range (d.all.card + 1), n ∉ d.all := by
  by_contra! h
  have hsub : Finset.range (d.all.card + 1) ⊆ d.all := fun n hn =>
    h n (List.mem_range.mpr (Finset.mem_range.mp hn))
  have hcard := Finset.card_le_card hsub
  rw [Finset.card_range] at hcard
  omega

/-- A new descriptor was not open, and is no larger than there were open ones. -/
lemma lowest_spec : d.lowest ∉ d.all ∧ d.lowest ≤ d.all.card := by
  obtain ⟨n, hn, hfree⟩ := d.exists_free
  have hsome : ((List.range (d.all.card + 1)).find? (· ∉ d.all)).isSome = true :=
    List.find?_isSome.mpr ⟨n, hn, by simpa using hfree⟩
  obtain ⟨m, hm⟩ := Option.isSome_iff_exists.mp hsome
  have hfound := List.find?_some hm
  have hmem := List.mem_range.mp (List.mem_of_find?_eq_some hm)
  rw [lowest, hm, Option.getD_some]
  exact ⟨by simpa using hfound, by omega⟩

lemma lowest_notMem_own : d.lowest ∉ d.own := fun h =>
  d.lowest_spec.1 (Finset.mem_union_left _ h)

lemma lowest_notMem_library : d.lowest ∉ d.library := fun h =>
  d.lowest_spec.1 (Finset.mem_union_right _ h)

/-- The descriptors once the program has been given a new one. -/
def opened : Descriptors where
  own := insert d.lowest d.own
  library := d.library
  disjoint := Finset.disjoint_insert_left.mpr ⟨d.lowest_notMem_library, d.disjoint⟩

/-- The descriptors behind `close`, which closes whatever has the number. -/
def closed (fd : ℕ) : Descriptors where
  own := d.own.erase fd
  library := d.library.erase fd
  disjoint := (d.disjoint.mono_left (Finset.erase_subset _ _)).mono_right (Finset.erase_subset _ _)

/-- The descriptors behind calls of the libraries, which end with some of their own.  None of
these is a descriptor of the program. -/
def called (after : Finset ℕ) : Descriptors where
  own := d.own
  library := after \ d.own
  disjoint := Finset.disjoint_sdiff

variable {d}

@[ext] lemma ext {d' : Descriptors} (hown : d.own = d'.own) (hlibrary : d.library = d'.library) :
    d = d' := by
  cases d
  cases d'
  cases hown
  cases hlibrary
  rfl

/-- What is closed was the program's, and the libraries lose nothing. -/
lemma closed_of_mem (h : fd ∈ d.own) : (d.closed fd).library = d.library :=
  Finset.erase_eq_of_notMem (Finset.disjoint_left.mp d.disjoint h)

/-- To close what nobody has is to do nothing. -/
lemma closed_of_notMem (h : fd ∉ d.all) : d.closed fd = d := by
  rw [all, Finset.mem_union, not_or] at h
  exact ext (Finset.erase_eq_of_notMem h.1) (Finset.erase_eq_of_notMem h.2)

/-- A descriptor that was opened and is closed leaves nothing behind. -/
lemma closed_opened : d.opened.closed d.lowest = d :=
  ext (Finset.erase_insert d.lowest_notMem_own)
    (Finset.erase_eq_of_notMem d.lowest_notMem_library)

/-- A second `close` behind the first does nothing. -/
lemma closed_closed : (d.closed fd).closed fd = d.closed fd :=
  closed_of_notMem (by simp [all, closed])

end Descriptors

end CLib
