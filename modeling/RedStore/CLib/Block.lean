/-
Blocks of memory.

A block is the list of what its bytes hold, and a store has to stay inside of it.  Text that
is written from the front of a block on ends where the next store begins, whatever stands
behind it.
-/
import RedStore.CLib.Machine

namespace CLib

variable {α : Type}

/-- The block that `malloc` returns: nothing is known of its bytes. -/
def uninitialized (size : ℕ) : List (Option UInt8) := List.replicate size none

/-- A store of some bytes from an offset on. -/
def store (bytes : List α) (ptr : ℕ) (block : List α) : Except Fault (List α) :=
  if ptr + bytes.length ≤ block.length then
    .ok (block.take ptr ++ bytes ++ block.drop (ptr + bytes.length))
  else .error .bufferOverflow

/-- `snprintf` of a text: as much of it as fits, and the terminator. -/
def snprintf (size : ℕ) (text : List UInt8) (ptr : ℕ) (block : List (Option UInt8)) :
    Except Fault (List (Option UInt8)) :=
  store ((text.take (size - 1) ++ [0]).map some) ptr block

/-! ### Strings in a block -/

/-- `strcpy` of a string to the front of a block. -/
def strcpy (s : CString) (block : List UInt8) : Except Fault (List UInt8) :=
  store (s.bytes ++ [0]) 0 block

/-- `strlen` of the string at the front of a block; without a terminator it leaves the block. -/
def blockStrlen (block : List UInt8) : Except Fault ℕ :=
  match strchr block 0 with
  | some n => .ok n
  | none => .error .outOfBounds

/-- `strcat` of a string to the one at the front of a block. -/
def strcat (s : CString) (block : List UInt8) : Except Fault (List UInt8) := do
  let ptr ← blockStrlen block
  store (s.bytes ++ [0]) ptr block

/-- A block of some size holds a string at its front. -/
def Holds (size : ℕ) (block : List UInt8) (s : CString) : Prop :=
  block.length = size ∧ ∃ rest, block = s.bytes ++ 0 :: rest

/-- A store behind what has been written. -/
lemma store_behind (done bytes room : List α) (h : bytes.length ≤ room.length) :
    store bytes done.length (done ++ room) = .ok (done ++ bytes ++ room.drop bytes.length) := by
  rw [store, if_pos (by simpa using h), List.take_left, List.drop_append, List.drop_eq_nil_of_le,
    Nat.add_sub_cancel_left, List.nil_append]
  exact Nat.le_add_right _ _

/-- The store of one byte. -/
lemma store_one {block : List α} {ptr : ℕ} (h : ptr < block.length) (a : α) :
    store [a] ptr block = .ok (block.set ptr a) := by
  rw [store, if_pos (by simpa using Nat.succ_le_of_lt h), List.set_eq_take_append_cons_drop,
    if_pos h]
  simp

section Holds

variable {size : ℕ} {block : List UInt8} {s : CString}

lemma Holds.ofBytes_eq (h : Holds size block s) : CString.ofBytes block = s := by
  obtain ⟨-, rest, rfl⟩ := h
  exact CString.ext (CString.bytes_ofBytes_append_zero s.nul_free rest)

lemma Holds.blockStrlen_eq (h : Holds size block s) : blockStrlen block = .ok s.strlen := by
  obtain ⟨-, rest, rfl⟩ := h
  have hfirst : strchr (s.bytes ++ 0 :: rest) 0 = some s.strlen :=
    strchr_eq_some_iff.mpr ⟨s.bytes, rest, rfl, s.nul_free, rfl⟩
  rw [blockStrlen, hfirst]

/-- A store of a string behind another one leaves the two as one string. -/
lemma strcpy_holds (hsize : block.length = size) (h : s.strlen < size) :
    ∃ block', strcpy s block = .ok block' ∧ Holds size block' s := by
  have hroom : (s.bytes ++ [0]).length ≤ block.length := by
    simp only [List.length_append, List.length_singleton, hsize]
    exact h
  have hstore := store_behind [] (s.bytes ++ [0]) block hroom
  refine ⟨_, hstore, ?_, block.drop (s.bytes ++ [0]).length, by simp⟩
  simp only [List.nil_append, List.length_append, List.length_drop]
  simp only [List.length_append] at hroom
  omega

lemma Holds.strcat_holds {t : CString} (h : Holds size block s)
    (hroom : s.strlen + t.strlen < size) :
    ∃ block', strcat t block = .ok block' ∧ Holds size block' (s ++ t) := by
  have hlen := h.blockStrlen_eq
  obtain ⟨hsize, rest, rfl⟩ := h
  have hfits : (t.bytes ++ [0]).length ≤ (0 :: rest).length := by
    simp only [List.length_append, List.length_cons, List.length_nil, CString.strlen]
      at hsize hroom ⊢
    omega
  have hstore := store_behind s.bytes (t.bytes ++ [0]) (0 :: rest) hfits
  refine ⟨s.bytes ++ (t.bytes ++ [0]) ++ (0 :: rest).drop (t.bytes ++ [0]).length, ?_, ?_,
    (0 :: rest).drop (t.bytes ++ [0]).length, ?_⟩
  · rw [strcat, hlen]
    exact hstore
  · simp only [List.length_append, List.length_drop] at hfits hsize ⊢
    omega
  · simp

end Holds

end CLib
