/-
A stream that is both read and written, over a connection.

What is read comes out of a buffer, which one `read` of the descriptor fills with a portion of
what has been sent.  Before a stream is written that has been read, what waits in its buffer
has to be given back with a seek.  A connection cannot be positioned, so the seek fails, and
nothing is written as long as something waits.
-/
import Mathlib.Tactic.Common
import Mathlib.Data.List.TakeDrop

namespace CLib

variable {α : Type}

/-- What one `read` brings; it brings something, unless the other side is done. -/
structure Portion (α : Type) where
  first : α
  rest : List α

/-- The contents of a portion. -/
def Portion.bytes (p : Portion α) : List α := p.first :: p.rest

/-- The contents of some portions, one after the other. -/
def portionBytes (portions : List (Portion α)) : List α := portions.flatMap Portion.bytes

/-- A stream over a connection: what waits in its buffer, what the descriptor still brings, and
what has been written to the descriptor. -/
structure Stream (α : Type) where
  waiting : List α := []
  portions : List (Portion α) := []
  written : List α := []

namespace Stream

/-- A stream that has been opened on a connection. -/
def opened (portions : List (Portion α)) : Stream α := { portions }

/-- `fgetc`: the buffer is filled when nothing waits in it. -/
def getc (s : Stream α) : Option α × Stream α :=
  match s.waiting, s.portions with
  | c :: waiting, _ => (some c, { s with waiting })
  | [], p :: portions => (some p.first, { s with waiting := p.rest, portions })
  | [], [] => (none, s)

/-- Reading so many bytes. -/
def skip : ℕ → Stream α → Stream α
  | 0, s => s
  | n + 1, s => skip n s.getc.2

/-- `fwrite`: nothing is written while something waits. -/
def put (s : Stream α) (bytes : List α) : Stream α :=
  if s.waiting.isEmpty then { s with written := s.written ++ bytes } else s

/-! ### Reading -/

variable {s : Stream α}

lemma getc_written : s.getc.2.written = s.written := by
  rcases s with ⟨_ | ⟨c, waiting⟩, _ | ⟨p, portions⟩, written⟩ <;> rfl

/-- Reading writes nothing. -/
@[simp] lemma skip_written (n : ℕ) (s : Stream α) : (s.skip n).written = s.written := by
  induction n generalizing s with
  | zero => rfl
  | succ n ih => rw [skip, ih, getc_written]

lemma skip_add (m n : ℕ) (s : Stream α) : s.skip (m + n) = (s.skip m).skip n := by
  induction m generalizing s with
  | zero => simp [skip]
  | succ m ih => rw [Nat.succ_add, skip, skip, ih]

/-- As long as the buffer suffices, it is all that is read from. -/
lemma skip_of_le {n : ℕ} (h : n ≤ s.waiting.length) :
    s.skip n = { s with waiting := s.waiting.drop n } := by
  induction n generalizing s with
  | zero => simp [skip]
  | succ n ih =>
    rcases s with ⟨_ | ⟨c, waiting⟩, portions, written⟩
    · simp at h
    · have hstep : (⟨c :: waiting, portions, written⟩ : Stream α).getc.2 =
          ⟨waiting, portions, written⟩ := rfl
      rw [skip, hstep, ih (by simpa using h)]
      rfl

/-- With nothing waiting, reading into the next portion fills the buffer with it. -/
lemma skip_succ_portion {n : ℕ} {p : Portion α} {portions : List (Portion α)} {written : List α}
    (h : n ≤ p.rest.length) :
    (⟨[], p :: portions, written⟩ : Stream α).skip (n + 1) =
      ⟨p.rest.drop n, portions, written⟩ := by
  rw [skip]
  exact skip_of_le h

/-! ### When nothing waits -/

/-- So many bytes are those of the first portions. -/
def WholePortions (portions : List (Portion α)) (n : ℕ) : Prop :=
  ∃ k, n = (portionBytes (portions.take k)).length

@[simp] lemma portionBytes_cons (p : Portion α) (portions : List (Portion α)) :
    portionBytes (p :: portions) = p.bytes ++ portionBytes portions := rfl

lemma wholePortions_zero (portions : List (Portion α)) : WholePortions portions 0 :=
  ⟨0, rfl⟩

lemma wholePortions_cons_add {p : Portion α} {portions : List (Portion α)} {n : ℕ} :
    WholePortions (p :: portions) (p.bytes.length + n) ↔ WholePortions portions n := by
  constructor
  · rintro ⟨_ | k, hk⟩
    · simp [portionBytes, Portion.bytes] at hk
    · refine ⟨k, ?_⟩
      rw [List.take_succ_cons, portionBytes_cons, List.length_append] at hk
      omega
  · rintro ⟨k, rfl⟩
    exact ⟨k + 1, by rw [List.take_succ_cons, portionBytes_cons, List.length_append]⟩

/-- A part of a portion is not whole. -/
lemma not_wholePortions_cons {p : Portion α} {portions : List (Portion α)} {n : ℕ} (h0 : 0 < n)
    (hn : n < p.bytes.length) : ¬ WholePortions (p :: portions) n := by
  rintro ⟨_ | k, hk⟩
  · simp [portionBytes] at hk
    omega
  · rw [List.take_succ_cons, portionBytes_cons, List.length_append] at hk
    omega

/-- Nothing waits in the buffer exactly when whole portions have been read. -/
theorem skip_waiting_eq_nil_iff {portions : List (Portion α)} {written : List α} {n : ℕ}
    (hn : n ≤ (portionBytes portions).length) :
    ((⟨[], portions, written⟩ : Stream α).skip n).waiting = [] ↔ WholePortions portions n := by
  induction portions generalizing n with
  | nil =>
    obtain rfl : n = 0 := by simpa [portionBytes] using hn
    exact iff_of_true rfl (wholePortions_zero _)
  | cons p portions ih =>
    rcases Nat.eq_zero_or_pos n with rfl | h0
    · exact iff_of_true rfl (wholePortions_zero _)
    have hbytes : p.bytes.length = p.rest.length + 1 := rfl
    by_cases hin : n < p.bytes.length
    · -- the rest of the portion waits
      obtain ⟨m, rfl⟩ := Nat.exists_eq_add_of_lt h0
      rw [Nat.zero_add, skip_succ_portion (by omega)]
      refine iff_of_false (fun hnil => ?_) (not_wholePortions_cons (by omega) (by omega))
      rw [List.drop_eq_nil_iff] at hnil
      omega
    · -- the portion has been read
      obtain ⟨m, rfl⟩ := Nat.exists_eq_add_of_le (Nat.le_of_not_lt hin)
      have hall : (⟨[], p :: portions, written⟩ : Stream α).skip p.bytes.length =
          ⟨[], portions, written⟩ := by
        rw [hbytes, skip_succ_portion (Nat.le_refl _), List.drop_length]
      rw [skip_add, hall, wholePortions_cons_add]
      refine ih ?_
      rw [portionBytes_cons, List.length_append] at hn
      omega

/-- A stream is written, once so many bytes have been read, exactly when nothing waits. -/
lemma put_skip_written {portions : List (Portion α)} {n : ℕ} {bytes : List α}
    (hn : n ≤ (portionBytes portions).length) :
    (WholePortions portions n → (((opened portions).skip n).put bytes).written = bytes) ∧
      (¬ WholePortions portions n → (((opened portions).skip n).put bytes).written = []) := by
  have hwaiting : ((opened portions).skip n).waiting = [] ↔ WholePortions portions n :=
    skip_waiting_eq_nil_iff hn
  constructor
  · intro hwhole
    rw [put, if_pos (List.isEmpty_iff.mpr (hwaiting.mpr hwhole)), skip_written]
    exact List.nil_append _
  · intro hpart
    rw [put, if_neg (fun h => hpart (hwaiting.mp (List.isEmpty_iff.mp h))), skip_written]
    rfl

end Stream

end CLib
