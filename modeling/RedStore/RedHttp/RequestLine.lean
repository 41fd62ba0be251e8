/-
The request line: what `redhttp_request_read_status_line` takes from the input, and what it
sets in the request.
-/
import RedStore.RedHttp.Arguments
import RedStore.RedHttp.HeaderBlock

namespace RedStore.RedHttp
open CLib

/-- The query string of a target: what follows its first question mark. -/
def queryStringOf (target : CString) : Option CString :=
  (strchr target.bytes (ch '?')).map fun i => CString.ofBytes (target.bytes.drop (i + 1))

/-- The bytes of the query string, none without a question mark. -/
def queryBytes (target : CString) : List UInt8 := (queryStringOf target).elim [] CString.bytes

/-- The path of a target: the decoding of what comes before its first question mark. -/
def pathOf (target : CString) : CString := unescaped (target.bytes.takeWhile (· != ch '?'))

/-- A request after `redhttp_request_set_path_and_query`. -/
def Request.withTarget (r : Request) (target : CString) : Request :=
  { r with
    pathAndQuery := some target
    queryString := (queryStringOf target).or r.queryString
    arguments := r.arguments ++ (argumentSegments (queryBytes target)).map segmentHeader
    path := some (pathOf target) }

lemma takeWhile_of_strchr_none {s : List UInt8} {c : UInt8} (h : strchr s c = none) :
    s.takeWhile (· != c) = s :=
  takeWhile_bne_eq_self_iff.mpr (strchr_eq_none_iff.mp h)

lemma setPathAndQuery_of_keys {target : CString} (h : KeysNonEmpty (queryBytes target))
    (r : Request) :
    redhttpRequestSetPathAndQuery (some target) r = .ok () (r.withTarget target) := by
  rw [redhttpRequestSetPathAndQuery]
  simp only [bind_apply, modify_apply]
  cases hq : strchr target.bytes (ch '?') with
  | none =>
    simp [Request.withTarget, queryStringOf, queryBytes, pathOf, hq, takeWhile_of_strchr_none hq]
  | some i =>
    have hquery : queryBytes target = (CString.ofBytes (target.bytes.drop (i + 1))).bytes := by
      simp [queryBytes, queryStringOf, hq]
    rw [hquery] at h
    simp only [bind_apply, redhttpRequestSetQueryString, modify_apply, parseArguments_of_keys h]
    simp [Request.withTarget, queryStringOf, hquery, pathOf, hq, take_of_strchr hq]

lemma setPathAndQuery_of_not_keys {target : CString} (h : ¬ KeysNonEmpty (queryBytes target))
    (r : Request) : ∃ r', redhttpRequestSetPathAndQuery (some target) r = .error .assertion r' := by
  rw [redhttpRequestSetPathAndQuery]
  simp only [bind_apply, modify_apply]
  cases hq : strchr target.bytes (ch '?') with
  | none =>
    refine absurd ?_ h
    simp [queryBytes, queryStringOf, hq, KeysNonEmpty]
  | some i =>
    have hquery : queryBytes target = (CString.ofBytes (target.bytes.drop (i + 1))).bytes := by
      simp [queryBytes, queryStringOf, hq]
    rw [hquery] at h
    simp only [bind_apply, redhttpRequestSetQueryString, modify_apply]
    obtain ⟨r', hr'⟩ := parseArguments_of_not_keys h
      { r with pathAndQuery := some target,
               queryString := some (CString.ofBytes (target.bytes.drop (i + 1))) }
    exact ⟨r', by rw [hr']⟩

/-! ### The line as a whole -/

/-- The request line at the start of the input, when it is accepted, and what follows it. -/
def requestLine (heap : Heap) (input : List UInt8) : Option (StatusLine × List UInt8) :=
  match readLineFrom heap bufsiz input with
  | .ok (some line, rest) =>
    if (CString.ofBytes line).strlen = 0 then none
    else
      match splitStatusLine line with
      | .ok (some parts) => some (parts, rest)
      | _ => none
  | _ => none

/-- A request after its request line has been read. -/
def Request.withStatusLine (r : Request) (parts : StatusLine) (rest : List UInt8) : Request :=
  { { r.withInput rest with method := some (storedMethod parts.method) }.withTarget
      parts.pathAndQuery with version := some parts.version }

/-- The header loop and the request line only fault on behalf of the heap or the line
buffer, never through an `assert`. -/
lemma readLineLoop_ne_assertion (heap : Heap) (initial : ℕ) :
    ∀ input stored size, readLineLoop heap initial input stored size ≠ .error .assertion := by
  intro input
  induction input with
  | nil => simp [readLineLoop]
  | cons c input ih =>
    intro stored size
    rw [readLineLoop]
    split_ifs
    · simp
    · simp
    · simp
    · simp
    · exact ih _ _
    · simp
    · exact ih _ _

lemma readLineFrom_ne_assertion (heap : Heap) (initial : ℕ) (input : List UInt8) :
    readLineFrom heap initial input ≠ .error .assertion := by
  rw [readLineFrom]
  split
  · exact readLineLoop_ne_assertion heap initial _ _ _
  · simp

lemma headerBlock_rest_ne_assertion (heap : Heap) (input : List UInt8) :
    (headerBlock heap input).rest ≠ .error .assertion := by
  induction hn : input.length using Nat.strong_induction_on generalizing input with
  | _ n ih =>
    subst hn
    rcases hline : readLineFrom heap bufsiz input with e | ⟨_ | line, rest⟩
    · rw [headerBlock_of_error hline]
      rintro ⟨⟩
      exact readLineFrom_ne_assertion heap bufsiz input hline
    · simp [headerBlock_of_none hline]
    · by_cases hl : (CString.ofBytes line).strlen = 0
      · simp [headerBlock_of_empty hline hl]
      · rw [headerBlock_of_line hline hl]
        exact ih rest.length (readLineFrom_rest_lt hline) rest rfl

lemma splitStatusLine_ne_assertion (memory : List UInt8) :
    splitStatusLine memory ≠ .error .assertion := by
  rw [splitStatusLine]
  split
  · simp
  · split
    · simp
    · split_ifs <;> simp

section StatusLine

variable {heap : Heap} {r : Request} {parts : StatusLine} {rest : List UInt8}

/-- The line and the split behind an accepted request line. -/
lemma requestLine_eq_some_iff :
    requestLine heap r.socket.input = some (parts, rest) ↔
      ∃ line, readLineFrom heap bufsiz r.socket.input = .ok (some line, rest) ∧
        (CString.ofBytes line).strlen ≠ 0 ∧ splitStatusLine line = .ok (some parts) := by
  rw [requestLine]
  constructor
  · intro h
    split at h
    · next line rest' hline =>
      split at h
      · cases h
      · next hl =>
        split at h
        · next parts' hparts =>
          simp only [Option.some.injEq, Prod.mk.injEq] at h
          obtain ⟨rfl, rfl⟩ := h
          exact ⟨line, hline, hl, hparts⟩
        · cases h
    · cases h
  · rintro ⟨line, hline, hl, hparts⟩
    simp [hline, hl, hparts]

lemma readStatusLine_of_keys (h : requestLine heap r.socket.input = some (parts, rest))
    (hkeys : KeysNonEmpty (queryBytes parts.pathAndQuery)) :
    redhttpRequestReadStatusLine heap r = .ok 0 (r.withStatusLine parts rest) := by
  obtain ⟨line, hline, hl, hparts⟩ := requestLine_eq_some_iff.mp h
  simp only [redhttpRequestReadStatusLine, bind_apply, redhttpRequestReadLine, hline, hl, hparts,
    if_false, redhttpRequestSetMethod, modify_apply, setPathAndQuery_of_keys hkeys,
    redhttpRequestSetVersion, pure_apply]
  rfl

lemma readStatusLine_of_not_keys (h : requestLine heap r.socket.input = some (parts, rest))
    (hkeys : ¬ KeysNonEmpty (queryBytes parts.pathAndQuery)) :
    ∃ r', redhttpRequestReadStatusLine heap r = .error .assertion r' := by
  obtain ⟨line, hline, hl, hparts⟩ := requestLine_eq_some_iff.mp h
  obtain ⟨r', hr'⟩ := setPathAndQuery_of_not_keys hkeys
    { r.withInput rest with method := some (storedMethod parts.method) }
  refine ⟨r', ?_⟩
  simp only [redhttpRequestReadStatusLine, bind_apply, redhttpRequestReadLine, hline, hl, hparts,
    if_false, redhttpRequestSetMethod, modify_apply, Option.map_some, hr']

lemma readStatusLine_of_none (h : requestLine heap r.socket.input = none) :
    (∃ r', redhttpRequestReadStatusLine heap r = .ok badRequest r') ∨
      ∃ e r', redhttpRequestReadStatusLine heap r = .error e r' ∧ e ≠ .assertion := by
  rw [requestLine] at h
  rw [redhttpRequestReadStatusLine, bind_apply, redhttpRequestReadLine]
  rcases hline : readLineFrom heap bufsiz r.socket.input with e | ⟨_ | line, rest⟩
  · refine Or.inr ⟨e, r, rfl, ?_⟩
    rintro rfl
    exact readLineFrom_ne_assertion _ _ _ hline
  · exact Or.inl ⟨_, rfl⟩
  · simp only [hline] at h ⊢
    by_cases hl : (CString.ofBytes line).strlen = 0
    · simp only [hl, if_true]
      exact Or.inl ⟨_, rfl⟩
    · simp only [hl, if_false] at h ⊢
      rcases hparts : splitStatusLine line with e | _ | parts
      · refine Or.inr ⟨e, _, rfl, ?_⟩
        rintro rfl
        exact splitStatusLine_ne_assertion _ hparts
      · exact Or.inl ⟨_, rfl⟩
      · simp [hparts] at h

end StatusLine

end RedStore.RedHttp
