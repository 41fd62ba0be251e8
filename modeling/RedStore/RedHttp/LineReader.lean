/-
What `redhttp_request_read_line` reads.

Whatever the size of its first buffer, the reader has room for the next byte and for the
terminator each time that it gets to its loop, and as long as lines stay below 2^30 bytes no
doubling overflows.  It takes a line through its line feed and gives the text in front of the
first carriage return or line feed; without a line feed, with a NUL in front of it or without
memory it gives nothing.
-/
import RedStore.RedHttp.ReadLine

namespace RedStore.RedHttp
open CLib

variable {heap : Heap} {initial : ℕ}

/-! ### The loop -/

/-- The loop comes to a rest of the input with some bytes in the buffer and a size of it. -/
inductive ReaderState (heap : Heap) (initial : ℕ) (input : List UInt8) :
    List UInt8 → List UInt8 → ℕ → Prop where
  | start (hmalloc : heap.malloc initial = true) : ReaderState heap initial input input [] initial
  | kept {c : UInt8} {rest stored : List UInt8} {size : ℕ}
    (h : ReaderState heap initial input (c :: rest) stored size) (hzero : c ≠ 0)
    (hline : c ≠ ch '\n') (hroom : stored.length + 1 ≤ size - 1) :
    ReaderState heap initial input rest (stored ++ [storedByte c]) size
  | doubled {c : UInt8} {rest stored : List UInt8} {size : ℕ}
    (h : ReaderState heap initial input (c :: rest) stored size) (hzero : c ≠ 0)
    (hline : c ≠ ch '\n') (hfull : size - 1 < stored.length + 1) (hint : size * 2 < intRange)
    (hmalloc : heap.malloc (size * 2) = true) :
    ReaderState heap initial input rest (stored ++ [storedByte c]) (size * 2)

/-- There is room at every round, for a byte of the line or for the terminator. -/
lemma ReaderState.room {input rest stored : List UInt8} {size : ℕ}
    (h : ReaderState heap initial input rest stored size) (hinitial : 1 ≤ initial) :
    1 ≤ size ∧ stored.length ≤ size - 1 := by
  induction h with
  | start => exact ⟨hinitial, Nat.zero_le _⟩
  | kept _ _ _ hroom ih =>
    rw [List.length_append, List.length_singleton]
    exact ⟨ih.1, hroom⟩
  | doubled _ _ _ _ _ _ ih =>
    rw [List.length_append, List.length_singleton]
    omega

/-- The rounds are those of the loop. -/
lemma ReaderState.run {input rest stored : List UInt8} {size : ℕ}
    (h : ReaderState heap initial input rest stored size) (hinitial : 1 ≤ initial) :
    readLineFrom heap initial input = readLineLoop heap initial rest stored size := by
  induction h with
  | start hmalloc => rw [readLineFrom, if_pos hmalloc]
  | kept h hzero hline hroom ih =>
    have hsize := h.room hinitial
    rw [ih, readLineLoop, if_neg hzero, if_neg (by omega), if_neg hline, if_neg (by omega)]
  | doubled h hzero hline hfull hint hmalloc ih =>
    have hsize := h.room hinitial
    rw [ih, readLineLoop, if_neg hzero, if_neg (by omega), if_neg hline, if_pos hfull,
      if_neg (by omega), if_pos hmalloc]

/-! ### Lines -/

/-- The bytes in front of the first NUL or line feed. -/
def lineFront (input : List UInt8) : List UInt8 :=
  input.takeWhile fun c => c != 0 && c != ch '\n'

/-- The first line feed has no NUL in front of it. -/
def HasLine (input : List UInt8) : Prop := ∃ rest, input = lineFront input ++ ch '\n' :: rest

/-- There is memory for the first buffer and for each doubling that a line of `n` bytes needs. -/
def MemoryFor (heap : Heap) (initial n : ℕ) : Prop :=
  heap.malloc initial = true ∧ ∀ k, initial * 2 ^ k ≤ n → heap.malloc (initial * 2 ^ (k + 1)) = true

lemma lineFront_cons {c : UInt8} {rest : List UInt8} (hzero : c ≠ 0) (hline : c ≠ ch '\n') :
    lineFront (c :: rest) = c :: lineFront rest := by
  rw [lineFront, List.takeWhile_cons_of_pos (by simp [hzero, hline])]
  rfl

lemma lineFront_ne {input : List UInt8} : ∀ c ∈ lineFront input, c ≠ 0 ∧ c ≠ ch '\n' := by
  intro c hc
  simpa using List.mem_takeWhile_imp hc

/-- Below 2^30 bytes every doubling stays an `int`. -/
lemma room_iff_memory {n : ℕ} (hn : n < 2 ^ 30) :
    heap.malloc initial = true ∧ Room heap initial n ↔ MemoryFor heap initial n := by
  refine and_congr_right fun _ => forall_congr' fun k => imp_congr_right fun hk => ?_
  refine and_iff_right ?_
  rw [Nat.pow_succ, ← Nat.mul_assoc, intRange]
  omega

/-- The loop gets through. -/
lemma readLineLoop_ok {input stored : List UInt8} {size : ℕ} (hsize : stored.length < size)
    (hshort : stored.length + (lineFront input).length < 2 ^ 30) :
    ∃ result rest, readLineLoop heap initial input stored size = .ok (result, rest) := by
  induction input generalizing stored size with
  | nil => exact ⟨_, _, rfl⟩
  | cons c input ih =>
    rw [readLineLoop]
    by_cases hzero : c = 0
    · exact ⟨none, input, if_pos hzero⟩
    rw [if_neg hzero, if_neg (by omega)]
    by_cases hline : c = ch '\n'
    · exact ⟨_, input, if_pos hline⟩
    rw [lineFront_cons hzero hline, List.length_cons] at hshort
    have hlength : (stored ++ [storedByte c]).length = stored.length + 1 := by simp
    rw [if_neg hline]
    split
    · have hint : ¬ intRange ≤ size * 2 := by
        rw [intRange]
        omega
      rw [if_neg hint]
      split
      · exact ih (by omega) (by omega)
      · exact ⟨none, input, rfl⟩
    · exact ih (by omega) (by omega)

/-- A line that is given ends with a line feed. -/
lemma hasLine_of_readLineLoop {input stored memory rest : List UInt8} {size : ℕ}
    (h : readLineLoop heap initial input stored size = .ok (some memory, rest)) : HasLine input := by
  induction input generalizing stored size with
  | nil => simp [readLineLoop] at h
  | cons c input ih =>
    rw [readLineLoop] at h
    by_cases hzero : c = 0
    · simp [hzero] at h
    rw [if_neg hzero] at h
    split at h
    · cases h
    by_cases hline : c = ch '\n'
    · refine ⟨input, ?_⟩
      rw [lineFront, List.takeWhile_cons_of_neg (by simp [hline]), hline, List.nil_append]
    rw [if_neg hline] at h
    have hnext : ∃ size', readLineLoop heap initial input (stored ++ [storedByte c]) size' =
        .ok (some memory, rest) := by
      split at h
      · split at h
        · cases h
        · split at h
          · exact ⟨_, h⟩
          · simp at h
      · exact ⟨_, h⟩
    obtain ⟨size', hnext⟩ := hnext
    obtain ⟨rest', hrest'⟩ := ih hnext
    refine ⟨rest', ?_⟩
    rw [lineFront_cons hzero hline, List.cons_append, ← hrest']

/-- The string in front of a line's terminators. -/
lemma ofBytes_stored (l behind : List UInt8) (hl : ∀ c ∈ l, c ≠ 0) :
    (CString.ofBytes (l.map storedByte ++ 0 :: behind)).bytes = l.takeWhile (· != ch '\r') := by
  rw [CString.bytes_ofBytes]
  induction l with
  | nil => rfl
  | cons c l ih =>
    have hrest := ih fun c hc => hl c (List.mem_cons_of_mem _ hc)
    rw [List.map_cons, List.cons_append]
    by_cases hcr : c = ch '\r'
    · rw [List.takeWhile_cons_of_neg (by simp [storedByte, hcr]),
        List.takeWhile_cons_of_neg (by simp [hcr])]
    · have hstored : storedByte c = c := if_neg hcr
      rw [hstored, List.takeWhile_cons_of_pos (by simp [hl c List.mem_cons_self]),
        List.takeWhile_cons_of_pos (by simp [hcr]), hrest]

section Line

variable {input : List UInt8} (hinitial : 1 ≤ initial) (hshort : (lineFront input).length < 2 ^ 30)
include hinitial hshort

lemma readLineFrom_ok :
    ∃ result rest, readLineFrom heap initial input = .ok (result, rest) := by
  rw [readLineFrom]
  split
  · exact readLineLoop_ok hinitial (by simpa using hshort)
  · exact ⟨none, input, rfl⟩

/-- With memory, the line is stored and the input is taken through its line feed. -/
lemma readLineFrom_of_line {rest : List UInt8} (hinput : input = lineFront input ++ ch '\n' :: rest)
    (hmemory : MemoryFor heap initial (lineFront input).length) :
    ∃ memory, readLineFrom heap initial input = .ok (some memory, rest) ∧
      (CString.ofBytes memory).bytes = (lineFront input).takeWhile (· != ch '\r') := by
  obtain ⟨hmalloc, hroom⟩ := (room_iff_memory hshort).mpr hmemory
  have hempty : ([] : List UInt8).length < initial := hinitial
  have hroom' : Room heap initial (([] : List UInt8).length + (lineFront input).length) := by
    simpa using hroom
  obtain ⟨size', hrun⟩ : ∃ size', readLineLoop heap initial (lineFront input ++ ch '\n' :: rest)
      [] initial = .ok (some (lineMemory heap initial size'
        ([] ++ (lineFront input).map storedByte)), rest) :=
    readLineLoop_of_room lineFront_ne rest hempty hroom'
  rw [← hinput] at hrun
  refine ⟨_, by rw [readLineFrom, if_pos hmalloc, hrun], ?_⟩
  rw [List.nil_append, lineMemory]
  exact ofBytes_stored _ _ fun c hc => (lineFront_ne c hc).1

/-- NULL is returned exactly without a line or without the memory for it. -/
lemma readLineFrom_none_iff {result : Option (List UInt8)} {rest : List UInt8}
    (hrun : readLineFrom heap initial input = .ok (result, rest)) :
    result = none ↔ ¬ HasLine input ∨ ¬ MemoryFor heap initial (lineFront input).length := by
  constructor
  · rintro rfl
    by_contra hboth
    obtain ⟨⟨rest', hinput⟩, hmemory⟩ : HasLine input ∧
        MemoryFor heap initial (lineFront input).length := by tauto
    obtain ⟨memory, hline, -⟩ := readLineFrom_of_line hinitial hshort hinput hmemory
    rw [hline] at hrun
    cases hrun
  · intro hnot
    by_contra hsome
    obtain ⟨memory, rfl⟩ := Option.ne_none_iff_exists'.mp hsome
    have hmalloc : heap.malloc initial = true := by
      by_contra hmalloc
      simp [readLineFrom, hmalloc] at hrun
    rw [readLineFrom, if_pos hmalloc] at hrun
    obtain ⟨rest', hinput⟩ := hasLine_of_readLineLoop hrun
    refine hnot.elim (fun h => h ⟨rest', hinput⟩) fun hmemory => ?_
    have hroom : ¬ Room heap initial (([] : List UInt8).length + (lineFront input).length) := by
      intro hroom
      exact hmemory ((room_iff_memory hshort).mp ⟨hmalloc, by simpa using hroom⟩)
    have hstuck : readLineLoop heap initial (lineFront input ++ ch '\n' :: rest') [] initial =
        .error .signedOverflow ∨ ∃ rest'', readLineLoop heap initial
          (lineFront input ++ ch '\n' :: rest') [] initial = .ok (none, rest'') :=
      readLineLoop_of_not_room lineFront_ne rest' hinitial hroom
    rcases hstuck with hfault | ⟨rest'', hnone⟩
    · rw [← hinput, hrun] at hfault
      cases hfault
    · rw [← hinput, hrun] at hnone
      cases hnone

end Line

/-! ### One line after the other -/

/-- Some calls of `redhttp_request_read_line`, as their callers see them. -/
def readLines (heap : Heap) (initial : ℕ) :
    ℕ → List UInt8 → Except Fault (List (Option CString) × List UInt8)
  | 0, input => .ok ([], input)
  | calls + 1, input => do
    let (line, rest) ← readLineFrom heap initial input
    let (lines, rest) ← readLines heap initial calls rest
    .ok (line.map CString.ofBytes :: lines, rest)

/-- Lines with their ends. -/
def joinLines (lines : List (CString × Bool)) : List UInt8 :=
  lines.flatMap fun line => line.1.bytes ++ eol line.2

lemma lineFront_line {text : List UInt8} (htext : LineText text) (crlf : Bool)
    (rest : List UInt8) : lineFront (text ++ eol crlf ++ rest) = bufferedText text crlf := by
  have hall : ∀ c ∈ bufferedText text crlf, (c != 0 && c != ch '\n') = true := by
    intro c hc
    simpa using bufferedText_ne htext crlf c hc
  rw [line_eq, lineFront, List.takeWhile_append_of_pos hall]
  simp

/-- Lines that are written one after the other are read one after the other. -/
lemma readLines_joinLines (hinitial : 1 ≤ initial) {lines : List (CString × Bool)}
    (hlines : ∀ line ∈ lines, LineText line.1.bytes ∧
      (bufferedText line.1.bytes line.2).length < 2 ^ 30 ∧
      MemoryFor heap initial (bufferedText line.1.bytes line.2).length) (rest : List UInt8) :
    readLines heap initial lines.length (joinLines lines ++ rest) =
      .ok (lines.map fun line => some line.1, rest) := by
  induction lines with
  | nil => rfl
  | cons line lines ih =>
    obtain ⟨⟨htext, hshort, hmemory⟩, hrest⟩ := List.forall_mem_cons.mp hlines
    have hfront := lineFront_line htext line.2 (joinLines lines ++ rest)
    rw [← hfront] at hshort hmemory
    have hinput : line.1.bytes ++ eol line.2 ++ (joinLines lines ++ rest) =
        lineFront (line.1.bytes ++ eol line.2 ++ (joinLines lines ++ rest)) ++
          ch '\n' :: (joinLines lines ++ rest) := by rw [hfront, ← line_eq]
    obtain ⟨memory, hread, hstring⟩ := readLineFrom_of_line hinitial hshort hinput hmemory
    have htake : (bufferedText line.1.bytes line.2).takeWhile (· != ch '\r') = line.1.bytes := by
      have hfree : ch '\r' ∉ line.1.bytes := fun hmem => (htext _ hmem).2.1 rfl
      rw [bufferedText, takeWhile_bne_append hfree]
      cases line.2 <;> simp
    have hseen : CString.ofBytes memory = line.1 := by
      rw [CString.ext_iff, hstring, hfront, htake]
    rw [joinLines, List.flatMap_cons, List.append_assoc, List.length_cons, readLines]
    simp only [joinLines] at hread ih
    rw [hread]
    simp only [bind, Except.bind, ih hrest, Option.map_some, hseen, List.map_cons]

/-- Every round of the reader has room in its buffer.  It never faults; it gives NULL exactly
without a line feed that no NUL is in front of, or without memory, and else it takes the line
through its line feed and gives the text in front of the first carriage return or line feed. -/
theorem readLineFrom_reads (hinitial : 1 ≤ initial) :
    (∀ {input rest stored : List UInt8} {size : ℕ},
      ReaderState heap initial input rest stored size → stored.length ≤ size - 1 ∧ 1 ≤ size) ∧
    (∀ input : List UInt8, (lineFront input).length < 2 ^ 30 →
      ∃ result rest, readLineFrom heap initial input = .ok (result, rest) ∧
        (result = none ↔ ¬ HasLine input ∨ ¬ MemoryFor heap initial (lineFront input).length) ∧
        ∀ memory, result = some memory → input = lineFront input ++ ch '\n' :: rest ∧
          (CString.ofBytes memory).bytes = (lineFront input).takeWhile (· != ch '\r')) ∧
    ∀ (lines : List (CString × Bool)) (rest : List UInt8),
      (∀ line ∈ lines, LineText line.1.bytes ∧
        (bufferedText line.1.bytes line.2).length < 2 ^ 30 ∧
        MemoryFor heap initial (bufferedText line.1.bytes line.2).length) →
      readLines heap initial lines.length (joinLines lines ++ rest) =
        .ok (lines.map fun line => some line.1, rest) := by
  refine ⟨fun h => (h.room hinitial).symm, ?_, fun lines rest hlines =>
    readLines_joinLines hinitial hlines rest⟩
  intro input hshort
  obtain ⟨result, rest, hrun⟩ := readLineFrom_ok hinitial hshort
  have hnone := readLineFrom_none_iff hinitial hshort hrun
  refine ⟨result, rest, hrun, hnone, ?_⟩
  rintro memory rfl
  have hboth : ¬ (¬ HasLine input ∨ ¬ MemoryFor heap initial (lineFront input).length) :=
    fun h => Option.some_ne_none _ (hnone.mpr h)
  obtain ⟨⟨rest', hinput⟩, hmemory⟩ : HasLine input ∧
      MemoryFor heap initial (lineFront input).length := by tauto
  obtain ⟨memory', hline, hstring⟩ := readLineFrom_of_line hinitial hshort hinput hmemory
  rw [hrun] at hline
  obtain ⟨hmemory', hrest⟩ := Prod.mk.inj (Except.ok.inj hline)
  obtain rfl := Option.some.inj hmemory'
  exact ⟨hrest ▸ hinput, hstring⟩

/-- Two lines that are read from a buffer of one byte. -/
theorem readLineFrom_reads_one :
    readLines ⟨fun _ => true, fun _ => 0⟩ 1 2
        (joinLines [(CString.lit "GET / HTTP/1.0", true), (CString.lit "", false)] ++ []) =
      .ok ([some (CString.lit "GET / HTTP/1.0"), some (CString.lit "")], []) := by
  refine (readLineFrom_reads le_rfl).2.2
    [(CString.lit "GET / HTTP/1.0", true), (CString.lit "", false)] [] fun line hline => ?_
  have htexts : ∀ line ∈ [(CString.lit "GET / HTTP/1.0", true), (CString.lit "", false)],
      (∀ c ∈ line.1.bytes, c ≠ 0 ∧ c ≠ ch '\r' ∧ c ≠ ch '\n') ∧
        (bufferedText line.1.bytes line.2).length < 2 ^ 30 := by decide +kernel
  exact ⟨(htexts line hline).1, (htexts line hline).2, rfl, fun _ _ => rfl⟩

end RedStore.RedHttp
