/-
The header block of a request: the lines up to the first empty one, and what
`redhttp_request_read` makes of them.
-/
import RedStore.RedHttp.RequestRead

namespace RedStore.RedHttp
open CLib

/-! ### One line -/

/-- The entry that a header line stands for. -/
def headerOfLine (line : CString) : Option Header :=
  match line.bytes.dropWhile (· != ch ':') with
  | [] => none
  | _ :: ptr =>
    let value := ptr.dropWhile isspace
    if value = [] then none
    else some ⟨CString.ofBytes (line.bytes.takeWhile (· != ch ':')), some (CString.ofBytes value)⟩

/-- The line does not give a value to the empty key: it does not start with a colon that is
followed by anything but white space. -/
def LineKeyNonEmpty (line : CString) : Prop :=
  match line.bytes with
  | [] => True
  | c :: rest => c = ch ':' → rest.dropWhile isspace = []

instance (line : CString) : Decidable (LineKeyNonEmpty line) := by
  rw [LineKeyNonEmpty]
  exact match line.bytes with
    | [] => inferInstanceAs (Decidable True)
    | c :: rest => inferInstanceAs (Decidable (c = ch ':' → rest.dropWhile isspace = []))

lemma not_mem_dropWhile {p : UInt8 → Bool} {s : List UInt8} (h : (0 : UInt8) ∉ s) :
    (0 : UInt8) ∉ s.dropWhile p :=
  fun hm => h ((List.dropWhile_sublist p).subset hm)

lemma parseLine_of_key {line : CString} (h : LineKeyNonEmpty line) (first : List Header) :
    redhttpHeadersParseLine first line = .ok (first ++ (headerOfLine line).toList) := by
  rw [redhttpHeadersParseLine, headerOfLine]
  cases hd : line.bytes.dropWhile (· != ch ':') with
  | nil => simp
  | cons c ptr =>
    by_cases hv : ptr.dropWhile isspace = []
    · simp [hv]
    · have hnul : (0 : UInt8) ∉ ptr.dropWhile isspace := by
        have h0 : (0 : UInt8) ∉ c :: ptr := hd ▸ not_mem_dropWhile line.nul_free
        exact not_mem_dropWhile fun hm => h0 (by simp [hm])
      have hkey : (CString.ofBytes (line.bytes.takeWhile (· != ch ':'))).strlen ≠ 0 := by
        rw [CString.strlen, CString.bytes_ofBytes_of_not_mem fun hm =>
          line.nul_free ((List.takeWhile_sublist _).subset hm)]
        rw [LineKeyNonEmpty] at h
        cases hline : line.bytes with
        | nil => simp [hline] at hd
        | cons x s =>
          by_cases hx : x = ch ':'
          · simp only [hline, hx, bne_self_eq_false, Bool.false_eq_true, not_false_eq_true,
              List.dropWhile_cons_of_neg, List.cons.injEq] at hd
            simp only [hline] at h
            exact absurd (hd.2 ▸ h hx) hv
          · simp [hx]
      have hval : (CString.ofBytes (ptr.dropWhile isspace)).strlen ≠ 0 := by
        rw [CString.strlen, CString.bytes_ofBytes_of_not_mem hnul]
        simpa using hv
      simp only [hv, if_false, redhttpHeadersAdd_of_ne hkey, storedValue_of_ne hval,
        Option.toList_some]

lemma parseLine_of_not_key {line : CString} (h : ¬ LineKeyNonEmpty line)
    (first : List Header) : redhttpHeadersParseLine first line = .error .assertion := by
  rw [LineKeyNonEmpty] at h
  rw [redhttpHeadersParseLine]
  revert h
  cases line.bytes with
  | nil => simp
  | cons x s =>
    intro h
    simp only [Classical.not_imp] at h
    obtain ⟨rfl, hv⟩ := h
    simp only [bne_self_eq_false, Bool.false_eq_true, not_false_eq_true,
      List.dropWhile_cons_of_neg, List.takeWhile_cons_of_neg, hv, if_false]
    exact redhttpHeadersAdd_eq_assertion_iff.mpr rfl

/-! ### The block -/

/-- The lines of a header block and what comes after it. -/
structure HeaderBlock where
  lines : List CString
  /-- The input behind the block, unless reading a line faults. -/
  rest : Except Fault (List UInt8)

/-- The lines that `redhttp_request_read_line` gives up to an empty one, to the end of the
input or to a line it has to give up on. -/
def headerBlock (heap : Heap) (input : List UInt8) : HeaderBlock :=
  match _h : readLineFrom heap bufsiz input with
  | .error e => ⟨[], .error e⟩
  | .ok (none, rest) => ⟨[], .ok rest⟩
  | .ok (some line, rest) =>
    if (CString.ofBytes line).strlen < 1 then ⟨[], .ok rest⟩
    else
      let block := headerBlock heap rest
      ⟨CString.ofBytes line :: block.lines, block.rest⟩
termination_by input.length
decreasing_by exact readLineFrom_rest_lt _h

section Unfold

variable {heap : Heap} {input rest line : List UInt8} {e : Fault}

lemma headerBlock_of_error (h : readLineFrom heap bufsiz input = .error e) :
    headerBlock heap input = ⟨[], .error e⟩ := by
  rw [headerBlock]
  split <;> simp_all

lemma headerBlock_of_none (h : readLineFrom heap bufsiz input = .ok (none, rest)) :
    headerBlock heap input = ⟨[], .ok rest⟩ := by
  rw [headerBlock]
  split <;> simp_all

lemma headerBlock_of_empty (h : readLineFrom heap bufsiz input = .ok (some line, rest))
    (hl : (CString.ofBytes line).strlen = 0) : headerBlock heap input = ⟨[], .ok rest⟩ := by
  rw [headerBlock]
  split <;> simp_all

lemma headerBlock_of_line (h : readLineFrom heap bufsiz input = .ok (some line, rest))
    (hl : (CString.ofBytes line).strlen ≠ 0) :
    headerBlock heap input =
      ⟨CString.ofBytes line :: (headerBlock heap rest).lines, (headerBlock heap rest).rest⟩ := by
  rw [headerBlock]
  split <;> simp_all

variable {r : Request}

lemma readHeadersFrom_of_error (h : readLineFrom heap bufsiz r.socket.input = .error e) :
    readHeadersFrom heap r = .error e r := by
  have hr : redhttpRequestReadLine heap r = .error e r := by rw [redhttpRequestReadLine, h]
  rw [readHeadersFrom]
  split <;> simp_all

lemma readHeadersFrom_of_none (h : readLineFrom heap bufsiz r.socket.input = .ok (none, rest)) :
    readHeadersFrom heap r = .ok () (r.withInput rest) := by
  have hr : redhttpRequestReadLine heap r = .ok none (r.withInput rest) := by
    rw [redhttpRequestReadLine, h]
  rw [readHeadersFrom]
  split <;> simp_all

lemma readHeadersFrom_of_empty
    (h : readLineFrom heap bufsiz r.socket.input = .ok (some line, rest))
    (hl : (CString.ofBytes line).strlen = 0) :
    readHeadersFrom heap r = .ok () (r.withInput rest) := by
  have hr : redhttpRequestReadLine heap r = .ok (some line) (r.withInput rest) := by
    rw [redhttpRequestReadLine, h]
  rw [readHeadersFrom]
  split <;> simp_all

lemma readHeadersFrom_of_line
    (h : readLineFrom heap bufsiz r.socket.input = .ok (some line, rest))
    (hl : (CString.ofBytes line).strlen ≠ 0) :
    readHeadersFrom heap r =
      match redhttpHeadersParseLine r.headers (CString.ofBytes line) with
      | .error e => .error e (r.withInput rest)
      | .ok headers => readHeadersFrom heap { r.withInput rest with headers } := by
  have hr : redhttpRequestReadLine heap r = .ok (some line) (r.withInput rest) := by
    rw [redhttpRequestReadLine, h]
  rw [readHeadersFrom]
  split
  · simp_all
  · simp_all
  · next line' r' hline =>
    obtain ⟨rfl, rfl⟩ : line' = line ∧ r' = r.withInput rest := by simp_all
    rw [if_neg (by omega)]
    rfl

end Unfold

/-- A request with further headers. -/
def Request.withHeaders (r : Request) (headers : List Header) : Request :=
  { r with headers := r.headers ++ headers }

@[simp] lemma isPost_withInput (r : Request) (input : List UInt8) :
    (r.withInput input).isPost = r.isPost := rfl

@[simp] lemma isPost_withHeaders (r : Request) (headers : List Header) :
    (r.withHeaders headers).isPost = r.isPost := rfl

/-- What reading the headers leaves behind when every line is fit to be stored: the entries
of the lines, also when a later line cannot be read. -/
def readHeadersResult (r : Request) (block : HeaderBlock) :
    EStateM.Result Fault Request Unit → Prop := fun result =>
  match block.rest with
  | .ok rest => result = .ok () ((r.withInput rest).withHeaders
      (block.lines.filterMap headerOfLine))
  | .error e => ∃ input, result = .error e ((r.withInput input).withHeaders
      (block.lines.filterMap headerOfLine))

/-- Reading the headers appends the entries of the block. -/
theorem readHeadersFrom_of_keys (heap : Heap) (r : Request)
    (h : ∀ line ∈ (headerBlock heap r.socket.input).lines, LineKeyNonEmpty line) :
    readHeadersResult r (headerBlock heap r.socket.input) (readHeadersFrom heap r) := by
  induction hn : r.socket.input.length using Nat.strong_induction_on generalizing r with
  | _ n ih =>
    subst hn
    rcases hline : readLineFrom heap bufsiz r.socket.input with e | ⟨_ | line, rest⟩
    · rw [headerBlock_of_error hline, readHeadersFrom_of_error hline]
      exact ⟨r.socket.input, by simp [Request.withInput, Request.withHeaders]⟩
    · rw [headerBlock_of_none hline, readHeadersFrom_of_none hline]
      simp [readHeadersResult, Request.withInput, Request.withHeaders]
    · by_cases hl : (CString.ofBytes line).strlen = 0
      · rw [headerBlock_of_empty hline hl, readHeadersFrom_of_empty hline hl]
        simp [readHeadersResult, Request.withInput, Request.withHeaders]
      · rw [headerBlock_of_line hline hl] at h ⊢
        rw [readHeadersFrom_of_line hline hl, parseLine_of_key (h _ (by simp))]
        have hrec := ih rest.length (readLineFrom_rest_lt hline)
          { r.withInput rest with
            headers := r.headers ++ (headerOfLine (CString.ofBytes line)).toList }
          (fun l hl => h l (List.mem_cons_of_mem _ hl)) rfl
        revert hrec
        simp only [readHeadersResult, Request.withInput, Request.withHeaders]
        cases (headerBlock heap rest).rest with
        | error e =>
          rintro ⟨input, hrec⟩
          refine ⟨input, ?_⟩
          rw [hrec]
          cases hd : headerOfLine (CString.ofBytes line) <;> simp [hd]
        | ok rest' =>
          intro hrec
          rw [hrec]
          cases hd : headerOfLine (CString.ofBytes line) <;> simp [hd]

/-- A line that gives a value to the empty key aborts the process. -/
theorem readHeadersFrom_of_not_keys (heap : Heap) (r : Request)
    (h : ¬ ∀ line ∈ (headerBlock heap r.socket.input).lines, LineKeyNonEmpty line) :
    ∃ r', readHeadersFrom heap r = .error .assertion r' := by
  induction hn : r.socket.input.length using Nat.strong_induction_on generalizing r with
  | _ n ih =>
    subst hn
    rcases hline : readLineFrom heap bufsiz r.socket.input with e | ⟨_ | line, rest⟩
    · simp [headerBlock_of_error hline] at h
    · simp [headerBlock_of_none hline] at h
    · by_cases hl : (CString.ofBytes line).strlen = 0
      · simp [headerBlock_of_empty hline hl] at h
      · rw [headerBlock_of_line hline hl] at h
        rw [readHeadersFrom_of_line hline hl]
        by_cases hkey : LineKeyNonEmpty (CString.ofBytes line)
        · rw [parseLine_of_key hkey]
          exact ih rest.length (readLineFrom_rest_lt hline)
            { r.withInput rest with
              headers := r.headers ++ (headerOfLine (CString.ofBytes line)).toList }
            (by simpa [hkey, Request.withInput] using h) rfl
        · rw [parseLine_of_not_key hkey]
          exact ⟨_, rfl⟩

end RedStore.RedHttp
