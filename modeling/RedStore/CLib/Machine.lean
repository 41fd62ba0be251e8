/-
What a C program stands on: the ways a call can go wrong, the heap, and the integers
that the standard library converts from text.

A program whose behaviour the C standard leaves undefined, or that an `assert` stops,
has no result; it is modelled as an exception of type `Fault`.  The monad is
`EStateM Fault`, whose exceptions keep the state, since the memory and the sockets of
a process that faults are still those it had built up.
-/
import RedStore.CLib.CString
import Mathlib.Algebra.Ring.Int.Defs
import Mathlib.Algebra.Ring.Nat
import Mathlib.Data.Int.Basic
import Mathlib.Tactic.Common

namespace CLib

/-- The ways in which a run goes wrong. -/
inductive Fault where
  /-- An `assert` failed: the process aborts. -/
  | assertion
  /-- A NULL pointer was dereferenced. -/
  | nullPointer
  /-- A byte outside the object was read. -/
  | outOfBounds
  /-- A byte was stored behind the end of a buffer. -/
  | bufferOverflow
  /-- An `int` left its range. -/
  | signedOverflow
  /-- Freed memory was used or freed again. -/
  | useAfterFree
deriving DecidableEq, Repr

/-- The heap as far as a program can tell: which requests succeed, and what bytes
memory that `realloc` has added holds. -/
structure Heap where
  /-- Whether an allocation of so many bytes succeeds. -/
  malloc : ℕ → Bool
  /-- The byte found at an offset that nothing has been stored to. -/
  junk : ℕ → UInt8

/-- A heap that never runs out. -/
def Heap.Ample (heap : Heap) : Prop := ∀ n, heap.malloc n = true

/-- A pointer that owns its object: NULL, valid, or left dangling after `free`. -/
inductive Pointer (α : Type) where
  | null
  | valid (a : α)
  | freed
deriving DecidableEq

/-- `INT_MAX + 1`. -/
def intRange : ℕ := 2 ^ 31

/-- The number of values of `size_t`. -/
def sizeRange : ℕ := 2 ^ 64

/-- The number of values of `unsigned long`. -/
def longRange : ℕ := 2 ^ 64

/-- The conversion of an integer to `size_t`. -/
def sizeOfInt (n : ℤ) : ℕ := (n % (sizeRange : ℤ)).toNat

/-- The conversion of an integer to `int`. -/
def intOfSize (n : ℤ) : ℤ := n.bmod (2 ^ 32)

/-- The value of a run of decimal digits. -/
def digitsValue (s : List UInt8) : ℕ := s.foldl (fun n c => 10 * n + (c - 48).toNat) 0

/-- `strtol(s, NULL, 10)`: white space, a sign, digits; saturating. -/
def strtol (s : CString) : ℤ :=
  let s := s.bytes.dropWhile isspace
  let (negative, s) := match s with
    | c :: s' => if c = ch '-' then (true, s') else if c = ch '+' then (false, s') else (false, s)
    | [] => (false, s)
  let n : ℤ := digitsValue (s.takeWhile isdigit)
  max (-2 ^ 63) (min (2 ^ 63 - 1) (if negative then -n else n))

/-- `atoi`, which is `strtol` narrowed to `int`. -/
def atoi (s : CString) : ℤ := intOfSize (strtol s)

lemma sizeOfInt_of_nonneg {n : ℤ} (h : 0 ≤ n) (h' : n < sizeRange) : sizeOfInt n = n.toNat := by
  rw [sizeOfInt, Int.emod_eq_of_lt h h']

lemma intOfSize_lt (n : ℤ) : intOfSize n < intRange := by
  have := Int.bmod_lt (x := n) (m := 2 ^ 32) (by decide)
  simp only [intOfSize, intRange]
  omega

lemma intOfSize_of_lt {n : ℤ} (h : 0 ≤ n) (h' : n < intRange) : intOfSize n = n := by
  rw [intOfSize, Int.bmod_eq_of_le] <;> simp only [intRange] at h' ⊢ <;> omega

lemma atoi_lt (s : CString) : atoi s < intRange := intOfSize_lt _

end CLib
