/-
When reading a request aborts the process.

`redhttp_headers_add` asserts that its key is not empty, and nothing on the way to it makes
sure of that: a segment of a query string or of a form body may have no key (`=x`, `&&`) or
one that decodes to the empty string (`%00`), and a header line may start with its colon.
The reading of a request runs into the assertion exactly on those inputs.
-/
import RedStore.RedHttp.RequestLine

namespace RedStore.RedHttp
open CLib

/-- `REDHTTP_BAD_REQUEST` is not the 0 of success. -/
lemma badRequest_ne_zero : badRequest ≠ 0 := by decide

/-! ### The body of a form -/

/-- The urlencoded body behind the headers, when there is a buffer for it and all of it has
arrived. -/
def formBody (heap : Heap) (headers : List Header) (rest : List UInt8) : Option (List UInt8) :=
  match redhttpHeadersGet headers (CString.lit "Content-Type"),
    redhttpHeadersGet headers (CString.lit "Content-Length") with
  | some contentType, some contentLength =>
    let length := sizeOfInt (atoi contentLength)
    let data := rest.take length
    if (bytesOf "application/x-www-form-urlencoded").isPrefixOf contentType.bytes ∧
        heap.malloc ((length + 1) % sizeRange) = true ∧
        data.length ≤ (length + 1) % sizeRange ∧ formBodyRead length data = .complete data then
      some data
    else none
  | _, _ => none

lemma formBodyRead_cases (length : ℕ) (data : List UInt8) :
    formBodyRead length data = .answered badRequest ∨
      formBodyRead length data = .complete data := by
  rw [formBodyRead]
  split
  · exact Or.inl rfl
  · exact Or.inr rfl

/-- Reading the content of a POST aborts exactly on a complete form with an empty key. -/
lemma readContent_assertion_iff (heap : Heap) (r : Request) :
    (∃ r', redhttpRequestReadContent heap r = .error .assertion r') ↔
      ∃ body, formBody heap r.headers r.socket.input = some body ∧
        ¬ KeysNonEmpty (CString.ofBytes body).bytes := by
  simp only [redhttpRequestReadContent, bind_apply, get_apply, formBody, Request.getHeader]
  rcases redhttpHeadersGet r.headers (CString.lit "Content-Type") with _ | contentType
  · simp
  rcases redhttpHeadersGet r.headers (CString.lit "Content-Length") with _ | contentLength
  · simp
  by_cases hform : (bytesOf "application/x-www-form-urlencoded").isPrefixOf contentType.bytes
  · simp only [hform, if_true, bind_apply, readFormBody_eq rfl rfl, true_and]
    generalize sizeOfInt (atoi contentLength) = length
    generalize (length + 1) % sizeRange = size
    generalize r.socket.input.take length = data
    by_cases hm : heap.malloc size = true
    · by_cases hroom : size < data.length
      · simp [hm, hroom, Nat.not_le_of_lt hroom]
      · rcases formBodyRead_cases length data with hread | hread
        · simp [hm, hroom, hread]
        · simp only [hm, hroom, hread, if_true, if_false, Nat.le_of_not_lt hroom, and_self,
            Option.some.injEq, exists_eq_left', bind_apply]
          by_cases hkeys : KeysNonEmpty (CString.ofBytes data).bytes
          · simp [parseArguments_of_keys hkeys, hkeys]
          · obtain ⟨r₂, hr₂⟩ := parseArguments_of_not_keys hkeys (bodyTaken r size length)
            simp [hr₂, hkeys]
    · simp [hm]
  · simp [hform]

/-! ### The input as a whole -/

/-- Behind the request line, no header line starts with a colon followed by a value, and
every segment of a form that is read has a key. -/
def RestKeysNonEmpty (heap : Heap) (parts : StatusLine) (rest : List UInt8) : Prop :=
  (bytesOf "0.9").isPrefixOf parts.version.bytes = false →
    (∀ line ∈ (headerBlock heap rest).lines, LineKeyNonEmpty line) ∧
    ((bytesOf "POST").isPrefixOf (storedMethod parts.method).bytes = true →
      ∀ behind, (headerBlock heap rest).rest = .ok behind →
      ∀ body, formBody heap ((headerBlock heap rest).lines.filterMap headerOfLine) behind =
          some body →
        KeysNonEmpty (CString.ofBytes body).bytes)

/-- No key of an input is empty: every segment of the query string has one, and what follows
the request line gives none either. -/
def InputKeysNonEmpty (heap : Heap) (input : List UInt8) : Prop :=
  ∀ parts rest, requestLine heap input = some (parts, rest) →
    KeysNonEmpty (queryBytes parts.pathAndQuery) ∧ RestKeysNonEmpty heap parts rest

section Rest

variable {heap : Heap} {r : Request} {parts : StatusLine} {rest : List UInt8}

/-- The run behind an accepted request line aborts exactly on an empty key behind it. -/
lemma readRest_assertion_iff (hinput : r.socket.input = rest) (hnone : r.headers = [])
    (hversion : r.version = some parts.version)
    (hmethod : r.method = some (storedMethod parts.method)) :
    (∃ r', redhttpRequestReadRest heap r = .error .assertion r') ↔
      ¬ RestKeysNonEmpty heap parts rest := by
  subst hinput
  have hhas : r.hasHeaders = !(bytesOf "0.9").isPrefixOf parts.version.bytes := by
    rw [Request.hasHeaders, hversion, Option.any_some]
  rw [redhttpRequestReadRest, bind_of_ok (get_apply r), hhas, RestKeysNonEmpty]
  by_cases h09 : (bytesOf "0.9").isPrefixOf parts.version.bytes = true
  · simp [h09]
  rw [Bool.not_eq_true] at h09
  rw [h09, Bool.not_false, if_pos rfl, bind_apply, readHeaders, forall_prop_of_true rfl]
  by_cases hlines : ∀ line ∈ (headerBlock heap r.socket.input).lines, LineKeyNonEmpty line
  · have hres := readHeadersFrom_of_keys heap r hlines
    rw [readHeadersResult] at hres
    rcases hbehind : (headerBlock heap r.socket.input).rest with e | behind
    · obtain ⟨behind, h₂⟩ := by simpa only [hbehind] using hres
      have he : e ≠ .assertion := fun he => headerBlock_rest_ne_assertion heap _ (he ▸ hbehind)
      simp only [h₂, EStateM.Result.error.injEq, he, false_and, exists_false, false_iff, not_not]
      exact ⟨hlines, fun _ behind h => by cases h⟩
    · rw [hbehind] at hres
      have hpost : r.isPost = (bytesOf "POST").isPrefixOf (storedMethod parts.method).bytes := by
        rw [Request.isPost, hmethod, Option.any_some]
      simp only [hres, bind_apply, get_apply, isPost_withHeaders, isPost_withInput, hpost]
      by_cases hp : (bytesOf "POST").isPrefixOf (storedMethod parts.method).bytes = true
      · simp only [hp, if_true, readContent_assertion_iff, Request.withHeaders, Request.withInput,
          hnone, List.nil_append, forall_true_left]
        simpa using Or.inl hlines
      · simpa [hp] using hlines
  · obtain ⟨r₂, h₂⟩ := readHeadersFrom_of_not_keys heap r hlines
    simp [h₂, hlines]

end Rest

/-- Reading a request from a client calls `redhttp_headers_add` with an empty key, and so
aborts, exactly when a key of the input is empty. -/
theorem redhttpRequestRead_ne_assertion_iff (heap : Heap) (serverSignature : Option CString)
    (serverAddr serverPort : CString) (input : List UInt8) :
    (∀ r', redhttpRequestRead heap
        (redhttpRequestNew serverSignature serverAddr serverPort input) ≠
      .error .assertion r') ↔ InputKeysNonEmpty heap input := by
  set r := redhttpRequestNew serverSignature serverAddr serverPort input with hr
  rw [InputKeysNonEmpty]
  rcases hline : requestLine heap input with _ | ⟨parts, rest⟩
  · rcases readStatusLine_of_none (r := r) hline with ⟨r₁, h₁⟩ | ⟨e, r₁, h₁, he⟩
    · simp [redhttpRequestRead, bind_apply, h₁, badRequest_ne_zero]
    · simp [redhttpRequestRead, bind_apply, h₁, he]
  by_cases hkeys : KeysNonEmpty (queryBytes parts.pathAndQuery)
  · have hrest : (∃ r', redhttpRequestReadRest heap (r.withStatusLine parts rest) =
        .error .assertion r') ↔ ¬ RestKeysNonEmpty heap parts rest :=
      readRest_assertion_iff rfl rfl rfl rfl
    rw [redhttpRequestRead_of_statusLine (readStatusLine_of_keys hline hkeys)]
    have hsplit := not_iff_not.mpr hrest
    push Not at hsplit
    rw [hsplit]
    constructor
    · rintro h parts' rest' heq
      obtain ⟨rfl, rfl⟩ : parts = parts' ∧ rest = rest' := by simpa using heq
      exact ⟨hkeys, h⟩
    · exact fun h => (h parts rest rfl).2
  · obtain ⟨r₁, h₁⟩ := readStatusLine_of_not_keys (r := r) hline hkeys
    simp [redhttpRequestRead, bind_apply, h₁, hkeys]

/-- The query string `=x` has a value without a key. -/
theorem redhttpRequestRead_empty_key_aborts :
    ∃ r', redhttpRequestRead ⟨fun _ => true, fun _ => 0⟩
      (redhttpRequestNew none default default (bytesOf "GET /?=x\n")) = .error .assertion r' := by
  set r := redhttpRequestNew none default default (bytesOf "GET /?=x\n") with hr
  have hline : requestLine ⟨fun _ => true, fun _ => 0⟩ r.socket.input =
      some (⟨CString.lit "GET", CString.lit "/?=x", CString.lit "0.9"⟩, []) := by rfl
  have hkeys : ¬ KeysNonEmpty (queryBytes (CString.lit "/?=x")) := by decide
  obtain ⟨r', hr'⟩ := readStatusLine_of_not_keys hline hkeys
  exact ⟨r', by rw [redhttpRequestRead, bind_of_error hr']⟩

end RedStore.RedHttp
