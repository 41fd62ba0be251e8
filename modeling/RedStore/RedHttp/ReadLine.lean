/-
What `redhttp_request_read_line` makes of a line.

The line buffer starts with `BUFSIZ` bytes and is doubled when it is full, with an `int`
as its size.  `Readable` says when a line of a given length gets through: every doubling
that it needs keeps the size an `int` and is granted.  A line that does not get through is
lost: either the size overflows, or the line is given up on half way.
-/
import RedStore.RedHttp.RequestRead

namespace RedStore.RedHttp
open CLib

variable {heap : Heap} {initial size n : ℕ}

/-! ### The growth of the buffer -/

/-- A buffer of `size` bytes can grow to take a line of `n` bytes and its terminator. -/
def Room (heap : Heap) (size n : ℕ) : Prop :=
  ∀ k, size * 2 ^ k ≤ n → size * 2 ^ (k + 1) < intRange ∧ heap.malloc (size * 2 ^ (k + 1)) = true

/-- A line of `n` bytes in front of its line feed can be read. -/
def Readable (heap : Heap) (n : ℕ) : Prop := heap.malloc bufsiz = true ∧ Room heap bufsiz n

lemma room_of_lt (h : n < size) : Room heap size n := by
  intro k hk
  have : size ≤ size * 2 ^ k := Nat.le_mul_of_pos_right _ (Nat.two_pow_pos k)
  omega

lemma room_double (h : size ≤ n) :
    Room heap size n ↔
      size * 2 < intRange ∧ heap.malloc (size * 2) = true ∧ Room heap (size * 2) n := by
  have hpow : ∀ k, size * 2 * 2 ^ k = size * 2 ^ (k + 1) := fun k => by
    rw [Nat.pow_succ', Nat.mul_assoc]
  constructor
  · intro hroom
    have h0 := hroom 0 (by simpa using h)
    refine ⟨by simpa using h0.1, by simpa using h0.2, fun k hk => ?_⟩
    rw [hpow] at hk ⊢
    exact hroom (k + 1) hk
  · rintro ⟨hint, hmalloc, hroom⟩ k hk
    cases k with
    | zero => simpa using ⟨hint, hmalloc⟩
    | succ k =>
      have := hroom k (by rwa [hpow])
      rwa [hpow] at this

lemma readable_of_lt {m : ℕ} (h : Readable heap n) (hm : m < bufsiz) : Readable heap m :=
  ⟨h.1, room_of_lt hm⟩

/-- As long as memory lasts, the lines that can be read are those below 2^30 bytes. -/
theorem readable_iff_of_ample (h : heap.Ample) : Readable heap n ↔ n < 2 ^ 30 := by
  rw [Readable, Room]
  constructor
  · rintro ⟨-, hroom⟩
    by_contra hn
    have h17 := (hroom 17 (by rw [bufsiz]; omega)).1
    simp [bufsiz, intRange] at h17
  · refine fun hn => ⟨h _, fun k hk => ⟨?_, h _⟩⟩
    have hlt : bufsiz * 2 ^ k < 2 ^ 30 := hk.trans_lt hn
    rw [Nat.pow_succ, ← Nat.mul_assoc, intRange]
    omega

/-! ### The loop -/

section Loop

variable {l : List UInt8} (hl : ∀ c ∈ l, c ≠ 0 ∧ c ≠ ch '\n') (rest : List UInt8)
include hl

/-- A line that there is room for is stored as it is, its carriage returns as NULs. -/
lemma readLineLoop_of_room {stored : List UInt8} (hsize : stored.length < size)
    (hroom : Room heap size (stored.length + l.length)) :
    ∃ size', readLineLoop heap initial (l ++ ch '\n' :: rest) stored size =
      .ok (some (lineMemory heap initial size' (stored ++ l.map storedByte)), rest) := by
  induction l generalizing stored size with
  | nil =>
    refine ⟨size, ?_⟩
    have hnl : ch '\n' ≠ 0 := by decide
    rw [List.nil_append, readLineLoop, if_neg hnl, if_neg (by omega), if_pos rfl]
    simp
  | cons c l ih =>
    obtain ⟨hc0, hcn⟩ := hl c (by simp)
    have hl' : ∀ c ∈ l, c ≠ 0 ∧ c ≠ ch '\n' := fun c hc => hl c (by simp [hc])
    have hsum : (stored ++ [storedByte c]).length + l.length =
        stored.length + (c :: l).length := by simp; omega
    have hlen : (stored ++ [storedByte c]).length = stored.length + 1 := by simp
    rw [List.cons_append, readLineLoop, if_neg hc0, if_neg (by omega), if_neg hcn]
    by_cases hfull : size - 1 < stored.length + 1
    · -- the byte just stored was the last one that fits
      have hsize' : size ≤ stored.length + (c :: l).length := by simp; omega
      obtain ⟨hint, hmalloc, hroom'⟩ := (room_double hsize').mp hroom
      rw [if_pos hfull, if_neg (by omega), if_pos hmalloc]
      rw [← hsum] at hroom'
      obtain ⟨size', h⟩ := ih hl' (by omega) hroom'
      exact ⟨size', by simpa using h⟩
    · rw [if_neg hfull]
      rw [← hsum] at hroom
      obtain ⟨size', h⟩ := ih hl' (by omega) hroom
      exact ⟨size', by simpa using h⟩

/-- A line that there is no room for overflows the size of the buffer or is given up on. -/
lemma readLineLoop_of_not_room {stored : List UInt8} (hsize : stored.length < size)
    (hroom : ¬ Room heap size (stored.length + l.length)) :
    readLineLoop heap initial (l ++ ch '\n' :: rest) stored size = .error .signedOverflow ∨
      ∃ rest', readLineLoop heap initial (l ++ ch '\n' :: rest) stored size = .ok (none, rest') := by
  induction l generalizing stored size with
  | nil => exact absurd (room_of_lt (by simpa using hsize)) hroom
  | cons c l ih =>
    obtain ⟨hc0, hcn⟩ := hl c (by simp)
    have hl' : ∀ c ∈ l, c ≠ 0 ∧ c ≠ ch '\n' := fun c hc => hl c (by simp [hc])
    have hsum : (stored ++ [storedByte c]).length + l.length =
        stored.length + (c :: l).length := by simp; omega
    have hlen : (stored ++ [storedByte c]).length = stored.length + 1 := by simp
    rw [List.cons_append, readLineLoop, if_neg hc0, if_neg (by omega), if_neg hcn]
    by_cases hfull : size - 1 < stored.length + 1
    · have hsize' : size ≤ stored.length + (c :: l).length := by simp; omega
      rw [room_double hsize', ← hsum] at hroom
      rw [if_pos hfull]
      by_cases hint : intRange ≤ size * 2
      · exact Or.inl (by rw [if_pos hint])
      · rw [if_neg hint]
        by_cases hmalloc : heap.malloc (size * 2) = true
        · rw [if_pos hmalloc]
          exact ih hl' (by omega) fun h => hroom ⟨by omega, hmalloc, h⟩
        · exact Or.inr ⟨_, by rw [if_neg hmalloc]⟩
    · rw [if_neg hfull]
      rw [← hsum] at hroom
      exact ih hl' (by omega) hroom

end Loop

/-! ### A line with its end -/

/-- The end of a line. -/
def eol (crlf : Bool) : List UInt8 := if crlf then bytesOf "\r\n" else bytesOf "\n"

/-- What a line puts into the buffer before its line feed. -/
def bufferedText (text : List UInt8) (crlf : Bool) : List UInt8 :=
  text ++ if crlf then [ch '\r'] else []

/-- A text that can stand on a line. -/
def LineText (text : List UInt8) : Prop := ∀ c ∈ text, c ≠ 0 ∧ c ≠ ch '\r' ∧ c ≠ ch '\n'

lemma line_eq (text : List UInt8) (crlf : Bool) (rest : List UInt8) :
    text ++ eol crlf ++ rest = bufferedText text crlf ++ ch '\n' :: rest := by
  cases crlf <;> simp [eol, bufferedText, bytesOf]

section Line

variable {text : List UInt8} (htext : LineText text) (crlf : Bool) (rest : List UInt8)
include htext

lemma bufferedText_ne : ∀ c ∈ bufferedText text crlf, c ≠ 0 ∧ c ≠ ch '\n' := by
  intro c hc
  rcases List.mem_append.mp hc with hc | hc
  · exact ⟨(htext c hc).1, (htext c hc).2.2⟩
  · cases crlf with
    | false => simp at hc
    | true =>
      rw [List.mem_singleton.mp hc]
      decide

/-- Stored, the line is its text, followed by a NUL for a carriage return. -/
lemma map_storedByte_bufferedText :
    (bufferedText text crlf).map storedByte = text ++ if crlf then [0] else [] := by
  have hmap : text.map storedByte = text := by
    rw [List.map_congr_left (g := id), List.map_id]
    intro c hc
    rw [storedByte, if_neg (htext c hc).2.1, id]
  rw [bufferedText, List.map_append, hmap]
  cases crlf <;> rfl

/-- A line that can be read is the string at the start of the buffer. -/
theorem readLineFrom_of_readable (h : Readable heap (bufferedText text crlf).length) :
    ∃ behind, readLineFrom heap bufsiz (text ++ eol crlf ++ rest) =
      .ok (some (text ++ 0 :: behind), rest) := by
  have hbuf : ([] : List UInt8).length < bufsiz := by decide
  obtain ⟨size', hr⟩ : ∃ size',
      readLineLoop heap bufsiz (bufferedText text crlf ++ ch '\n' :: rest) [] bufsiz =
        .ok (some (lineMemory heap bufsiz size' ([] ++ (bufferedText text crlf).map storedByte)),
          rest) :=
    readLineLoop_of_room (bufferedText_ne htext crlf) rest hbuf (by simpa using h.2)
  rw [readLineFrom, if_pos h.1, line_eq, hr, List.nil_append, map_storedByte_bufferedText htext,
    lineMemory]
  cases crlf with
  | false => exact ⟨_, by simp only [Bool.false_eq_true, if_false, List.append_nil]; rfl⟩
  | true => exact ⟨_, by simp only [if_true, List.append_assoc, List.singleton_append]; rfl⟩

/-- A line that cannot be read overflows the size of the buffer or is given up on. -/
theorem readLineFrom_of_not_readable (h : ¬ Readable heap (bufferedText text crlf).length) :
    readLineFrom heap bufsiz (text ++ eol crlf ++ rest) = .error .signedOverflow ∨
      ∃ rest', readLineFrom heap bufsiz (text ++ eol crlf ++ rest) = .ok (none, rest') := by
  have hbuf : ([] : List UInt8).length < bufsiz := by decide
  rw [readLineFrom]
  by_cases hmalloc : heap.malloc bufsiz = true
  · rw [if_pos hmalloc, line_eq]
    refine readLineLoop_of_not_room (bufferedText_ne htext crlf) rest hbuf fun hroom => ?_
    exact h ⟨hmalloc, by simpa using hroom⟩
  · exact Or.inr ⟨_, by rw [if_neg hmalloc]⟩

/-- The string in the buffer is the text of the line. -/
lemma ofBytes_line (behind : List UInt8) :
    (CString.ofBytes (text ++ 0 :: behind)).bytes = text :=
  CString.bytes_ofBytes_append_zero (fun h => (htext 0 h).1 rfl) behind

end Line

end RedStore.RedHttp
