/-
C strings and the character classes of the C locale.

A buffer is a list of bytes.  What a callee that takes a `char *` sees of it ends at
the first NUL: `CString.ofBytes` cuts a buffer there, and a `CString` carries the
fact that no NUL is left in it, so that two strings are equal for `strcmp` exactly
when they are equal as values.

The functions of `ctype.h` are given for the C locale, where no byte from `0x80` on
belongs to any class.
-/
import Mathlib.Data.List.DropRight
import Mathlib.Data.List.TakeWhile
import Mathlib.Data.List.Basic
import Mathlib.Tactic.Common

namespace CLib

/-- The byte of an ASCII character. -/
def ch (c : Char) : UInt8 := UInt8.ofNat c.toNat

/-- The bytes of a string literal. -/
def bytesOf (s : String) : List UInt8 := s.toList.map ch

/-- A literal is a list of characters to the kernel, which is quicker with that than with what
the string is made of. -/
lemma bytesOf_ofList (l : List Char) : bytesOf (String.ofList l) = l.map ch := by
  rw [bytesOf, String.toList_ofList]

/-! ### Delimiters -/

section Delimiters

variable {α : Type} [BEq α] [LawfulBEq α] {d : α} {s : List α}

lemma forall_bne_iff : (∀ c ∈ s, (c != d) = true) ↔ d ∉ s := by
  constructor
  · intro h hd
    simpa using h d hd
  · rintro h c hc
    rw [bne_iff_ne]
    rintro rfl
    exact h hc

lemma takeWhile_bne_eq_self_iff : s.takeWhile (· != d) = s ↔ d ∉ s := by
  rw [List.takeWhile_eq_self_iff, forall_bne_iff]

lemma takeWhile_bne_append (h : d ∉ s) (t : List α) :
    (s ++ t).takeWhile (· != d) = s ++ t.takeWhile (· != d) :=
  List.takeWhile_append_of_pos (forall_bne_iff.mpr h)

lemma dropWhile_bne_append (h : d ∉ s) (t : List α) :
    (s ++ t).dropWhile (· != d) = t.dropWhile (· != d) :=
  List.dropWhile_append_of_pos (forall_bne_iff.mpr h)

/-- A string is a piece without the delimiter, alone or in front of the delimiter and of
another string. -/
@[elab_as_elim]
lemma delimited_induction (d : α) {motive : List α → Prop}
    (last : ∀ piece, d ∉ piece → motive piece)
    (more : ∀ piece rest, d ∉ piece → motive rest → motive (piece ++ d :: rest))
    (s : List α) : motive s := by
  induction hn : s.length using Nat.strong_induction_on generalizing s with
  | _ n ih =>
    subst hn
    by_cases hmem : d ∈ s
    · obtain ⟨piece, rest, rfl, hpiece⟩ := List.eq_append_cons_of_mem hmem
      exact more piece rest hpiece (ih rest.length (by simp; omega) rest rfl)
    · exact last s hmem

end Delimiters

/-- A string that a `char *` points to: the bytes before the terminating NUL. -/
structure CString where
  bytes : List UInt8
  nul_free : (0 : UInt8) ∉ bytes
deriving DecidableEq

namespace CString

@[ext] lemma ext {s t : CString} (h : s.bytes = t.bytes) : s = t := by
  cases s; cases t; congr

lemma not_mem_takeWhile_ne_zero (b : List UInt8) :
    (0 : UInt8) ∉ b.takeWhile (fun c => c != 0) := by
  intro h
  simpa using List.mem_takeWhile_imp h

/-- The string at the start of a buffer. -/
def ofBytes (b : List UInt8) : CString :=
  ⟨b.takeWhile (fun c => c != 0), not_mem_takeWhile_ne_zero b⟩

/-- A string literal of the source. -/
def lit (s : String) : CString := ofBytes (bytesOf s)

/-- `strlen`. -/
def strlen (s : CString) : ℕ := s.bytes.length

lemma bytes_ofBytes (b : List UInt8) :
    (ofBytes b).bytes = b.takeWhile (fun c => c != 0) := rfl

lemma bytes_ofBytes_of_not_mem {b : List UInt8} (h : (0 : UInt8) ∉ b) :
    (ofBytes b).bytes = b :=
  takeWhile_bne_eq_self_iff.mpr h

@[simp] lemma ofBytes_bytes (s : CString) : ofBytes s.bytes = s :=
  ext (bytes_ofBytes_of_not_mem s.nul_free)

lemma bytes_ofBytes_append_zero {b : List UInt8} (h : (0 : UInt8) ∉ b) (t : List UInt8) :
    (ofBytes (b ++ 0 :: t)).bytes = b := by
  have hb : b.takeWhile (fun c => c != 0) = b := bytes_ofBytes_of_not_mem h
  rw [bytes_ofBytes, List.takeWhile_append, if_pos (by rw [hb])]
  simp

lemma bytes_ofBytes_sublist (b : List UInt8) : (ofBytes b).bytes.Sublist b :=
  List.takeWhile_sublist _

/-- `strcat`: the concatenation of two strings. -/
def append (s t : CString) : CString :=
  ⟨s.bytes ++ t.bytes, by simp [s.nul_free, t.nul_free]⟩

instance : Append CString := ⟨append⟩

@[simp] lemma bytes_append (s t : CString) : (s ++ t).bytes = s.bytes ++ t.bytes := rfl

instance : Inhabited CString := ⟨⟨[], by simp⟩⟩

end CString

/-! ### `ctype.h` -/

def isspace (c : UInt8) : Bool := c == 32 || (9 ≤ c && c ≤ 13)

def isdigit (c : UInt8) : Bool := 48 ≤ c && c ≤ 57

def isupper (c : UInt8) : Bool := 65 ≤ c && c ≤ 90

def islower (c : UInt8) : Bool := 97 ≤ c && c ≤ 122

def isalpha (c : UInt8) : Bool := isupper c || islower c

def toupper (c : UInt8) : UInt8 := if islower c then c - 32 else c

def tolower (c : UInt8) : UInt8 := if isupper c then c + 32 else c

@[simp] lemma isspace_zero : isspace 0 = false := by decide
@[simp] lemma isalpha_zero : isalpha 0 = false := by decide

/-- A fact about the bytes of a text is checked on each of them. -/
lemma forall_mem_of_all {p : UInt8 → Prop} [DecidablePred p] {s : List UInt8}
    (h : s.all (fun c => decide (p c)) = true) : ∀ c ∈ s, p c := by
  simpa using h

/-- A fact about bytes is checked on the 256 of them. -/
lemma forall_uint8 {p : UInt8 → Prop} (h : ∀ n : Fin 256, p (UInt8.ofFin n)) (c : UInt8) :
    p c := by
  have := h c.toFin
  simpa using this

lemma toupper_ne_zero {c : UInt8} (h : c ≠ 0) : toupper c ≠ 0 := by
  revert h
  exact forall_uint8 (p := fun c => c ≠ 0 → toupper c ≠ 0) (by decide +kernel) c

lemma not_isspace_of_isalpha {c : UInt8} (h : isalpha c = true) : isspace c = false := by
  revert h
  exact forall_uint8 (p := fun c => isalpha c = true → isspace c = false) (by decide +kernel) c

lemma ne_zero_of_isspace {c : UInt8} (h : isspace c = true) : c ≠ 0 := by
  rintro rfl
  simp at h

lemma ne_zero_of_isalpha {c : UInt8} (h : isalpha c = true) : c ≠ 0 := by
  rintro rfl
  simp at h

/-! ### Cutting -/

/-- What follows does not take part where it does not begin with such an element. -/
lemma takeWhile_append_of_head {α : Type} {p : α → Bool} {rest : List α}
    (h : ∀ c ∈ rest.head?, p c = false) (v : List α) :
    (v ++ rest).takeWhile p = v.takeWhile p := by
  have hrest : rest.takeWhile p = [] := by
    cases rest with
    | nil => rfl
    | cons c rest => simp [h c rfl]
  induction v with
  | nil => exact hrest
  | cons c v ih => simp only [List.cons_append, List.takeWhile_cons, ih]

lemma dropWhile_append_of_head {α : Type} {p : α → Bool} {rest : List α}
    (h : ∀ c ∈ rest.head?, p c = false) (v : List α) :
    (v ++ rest).dropWhile p = v.dropWhile p ++ rest := by
  have hrest : rest.dropWhile p = rest := by
    cases rest with
    | nil => rfl
    | cons c rest => simp [h c rfl]
  induction v with
  | nil => exact hrest
  | cons c v ih =>
    simp only [List.cons_append, List.dropWhile_cons, ih]
    split <;> rfl

/-! ### `strchr` -/

/-- `strchr`, as the offset of the first occurrence. -/
def strchr (s : List UInt8) (c : UInt8) : Option ℕ := s.findIdx? (· == c)

lemma strchr_eq_none_iff {s : List UInt8} {c : UInt8} : strchr s c = none ↔ c ∉ s := by
  simp only [strchr, List.findIdx?_eq_none_iff, beq_eq_false_iff_ne]
  exact ⟨fun h hc => h c hc rfl, fun h x hx hxc => h (hxc ▸ hx)⟩

/-- An occurrence that `strchr` finds splits the string in two. -/
lemma strchr_eq_some_iff {s : List UInt8} {c : UInt8} {i : ℕ} :
    strchr s c = some i ↔ ∃ a b, s = a ++ c :: b ∧ c ∉ a ∧ a.length = i := by
  induction s generalizing i with
  | nil => simp [strchr]
  | cons x s ih =>
    simp only [strchr, List.findIdx?_cons] at ih ⊢
    by_cases hx : x = c
    · subst hx
      simp only [beq_self_eq_true, if_true, Option.some.injEq]
      constructor
      · rintro rfl
        exact ⟨[], s, rfl, by simp, rfl⟩
      · rintro ⟨a, b, hs, ha, rfl⟩
        cases a with
        | nil => rfl
        | cons y a =>
          simp only [List.cons_append, List.cons.injEq] at hs
          exact absurd (by simp [hs.1]) ha
    · rw [if_neg (by simpa using hx)]
      simp only [Option.map_eq_some_iff]
      constructor
      · rintro ⟨j, hj, rfl⟩
        obtain ⟨a, b, rfl, ha, rfl⟩ := ih.mp hj
        exact ⟨x :: a, b, rfl, by simp [Ne.symm hx, ha], rfl⟩
      · rintro ⟨a, b, hs, ha, rfl⟩
        cases a with
        | nil =>
          simp only [List.nil_append, List.cons.injEq] at hs
          exact absurd hs.1 hx
        | cons y a =>
          simp only [List.cons_append, List.cons.injEq] at hs
          obtain ⟨rfl, rfl⟩ := hs
          exact ⟨a.length, ih.mpr ⟨a, b, rfl, fun h => ha (by simp [h]), rfl⟩, rfl⟩

lemma strchr_append_of_mem {a : List UInt8} {c : UInt8} (h : c ∈ a) (b : List UInt8) :
    strchr (a ++ b) c = strchr a c := by
  have hne : strchr a c ≠ none := fun hnone => strchr_eq_none_iff.mp hnone h
  obtain ⟨i, hi⟩ := Option.ne_none_iff_exists'.mp hne
  rw [hi, strchr, List.findIdx?_append, ← strchr, hi, Option.some_or]

lemma strchr_append_of_not_mem {a : List UInt8} {c : UInt8} (h : c ∉ a) (b : List UInt8) :
    strchr (a ++ b) c = (strchr b c).map (· + a.length) := by
  rw [strchr, List.findIdx?_append, ← strchr, strchr_eq_none_iff.mpr h, Option.none_or]
  rfl

@[simp] lemma strchr_cons_self (c : UInt8) (b : List UInt8) : strchr (c :: b) c = some 0 := by
  simp [strchr, List.findIdx?_cons]

lemma strchr_lt_length {s : List UInt8} {c : UInt8} {i : ℕ} (h : strchr s c = some i) :
    i < s.length := by
  obtain ⟨a, b, rfl, -, rfl⟩ := strchr_eq_some_iff.mp h
  simp

/-- Whether `strstr` finds the string `t` in `s`. -/
def strstr (s t : List UInt8) : Bool := s.tails.any t.isPrefixOf

/-- `strchr` cuts a string where `takeWhile` does. -/
lemma take_of_strchr {s : List UInt8} {c : UInt8} {i : ℕ} (h : strchr s c = some i) :
    s.take i = s.takeWhile (· != c) := by
  obtain ⟨a, b, rfl, ha, rfl⟩ := strchr_eq_some_iff.mp h
  rw [List.take_left', takeWhile_bne_append ha]
  · simp
  · rfl

end CLib
