/-
The two readers of request bodies, and the Content-Length headers they are safe for.

`redhttp_request_read` and `parse_data_from_request_body` both take what `atoi` makes of
the header, an `int`, for a `size_t`, and neither sees that it was negative.  A negative
length is then one close to `2 ^ 64`: a buffer is asked for, in the first of them of a size
that `+ 1` may turn to 0, and the length is not refused with a 400.  From 0 on all is well.
-/
import RedStore.RedHttp.Arguments
import RedStore.Service.MemoryWorld
import RedStore.Service.Update

namespace RedStore.Service
open CLib RedHttp

/-! ### What is asked of the readers -/

/-- The allocations and reads for a body that a run has added. -/
def newCalls {α : Type} (r : Request) (result : EStateM.Result Fault Request α) : List Call :=
  (stateOf result).calls.drop r.calls.length

/-- No read asks for more than the buffer holds that was allocated for it. -/
def ReadsFit (calls : List Call) : Prop := ∀ room asked, .fread room asked ∈ calls → asked ≤ room

/-- What `redhttp_request_read` owes a urlencoded body: reads fit their buffer, a negative
length is refused before anything is allocated, and a body that is shorter than declared
adds no arguments. -/
structure FormReaderSound (heap : Heap) (contentLength : CString) (r : Request) : Prop where
  fits : ReadsFit (newCalls r (redhttpRequestReadContent heap r))
  refused : atoi contentLength < 0 →
    ∃ r', redhttpRequestReadContent heap r = .ok badRequest r' ∧ r'.calls = r.calls
  complete : (r.socket.input.length : ℤ) < atoi contentLength →
    (stateOf (redhttpRequestReadContent heap r)).arguments = r.arguments

/-- What `parse_data_from_request_body` owes a body: reads fit their buffer, a length that is
not positive is refused before anything is allocated, and a body that is shorter than
declared is answered with an error page instead of being processed. -/
structure DataReaderSound {T R σ : Type} (w : World T R σ) (contentLength : CString)
    (c : Conn (App σ)) : Prop where
  fits : ReadsFit (newCalls c.request (readDataBody w.heap (some contentLength) c.request))
  refused : atoi contentLength ≤ 0 → ∀ graphNode streamProc,
    parseDataFromRequestBody w graphNode streamProc c =
      redstorePageNewWithMessage w .badRequest (bytesOf "Invalid content length header.") c
  complete : (c.request.socket.input.length : ℤ) < atoi contentLength →
    ∀ graphNode streamProc, ∃ message c',
      parseDataFromRequestBody w graphNode streamProc c =
        redstorePageNewWithMessage w .internalServerError message c'

/-! ### Lengths -/

lemma sizeOfInt_atoi {s : CString} (h : 0 ≤ atoi s) : sizeOfInt (atoi s) = (atoi s).toNat := by
  refine sizeOfInt_of_nonneg h ?_
  have := atoi_lt s
  simp only [intRange, sizeRange] at *
  omega

lemma sizeOfInt_atoi_lt {s : CString} (h : 0 ≤ atoi s) : sizeOfInt (atoi s) < intRange := by
  rw [sizeOfInt_atoi h]
  have := atoi_lt s
  omega

/-- The size of the buffer for a length that is not negative. -/
lemma formBuffer_size {n : ℕ} (h : n < intRange) : (n + 1) % sizeRange = n + 1 := by
  apply Nat.mod_eq_of_lt
  simp only [intRange, sizeRange] at *
  omega

/-! ### The urlencoded body -/

section Form

variable {heap : Heap} {contentType contentLength : CString} {r : Request}

/-- What becomes of a urlencoded body that has been read. -/
def bodyResult : BodyRead → RequestM ℕ
  | .answered status => pure status
  | .skipped => pure 0
  | .complete body =>
    redhttpRequestParseArguments (some (CString.ofBytes body)) >>= fun _ => pure 0

lemma readContent_eq_bind
    (htype : r.getHeader (CString.lit "Content-Type") = some contentType)
    (hform : (bytesOf "application/x-www-form-urlencoded").isPrefixOf contentType.bytes = true)
    (hlength : r.getHeader (CString.lit "Content-Length") = some contentLength) :
    redhttpRequestReadContent heap r = (readFormBody heap contentLength >>= bodyResult) r := by
  simp only [redhttpRequestReadContent, bind_apply, get_apply, htype, hlength, hform, if_true]
  cases readFormBody heap contentLength r with
  | error e r' => rfl
  | ok body r' => cases body <;> rfl

/-- A urlencoded body behind its headers, by the buffer there is for it and the bytes that
have arrived. -/
lemma readContent_of_form {length size : ℕ}
    (htype : r.getHeader (CString.lit "Content-Type") = some contentType)
    (hform : (bytesOf "application/x-www-form-urlencoded").isPrefixOf contentType.bytes = true)
    (hlength : r.getHeader (CString.lit "Content-Length") = some contentLength)
    (hn : sizeOfInt (atoi contentLength) = length) (hsize : (length + 1) % sizeRange = size) :
    redhttpRequestReadContent heap r =
      if heap.malloc size then
        if size < (r.socket.input.take length).length then
          .error .bufferOverflow (bodyAsked r size length)
        else bodyResult (formBodyRead length (r.socket.input.take length)) (bodyTaken r size length)
      else .ok 0 (bodyAllocated r size length) := by
  rw [readContent_eq_bind htype hform hlength, bind_apply, readFormBody_eq hn hsize]
  by_cases hm : heap.malloc size = true
  · by_cases hroom : size < (r.socket.input.take length).length
    · simp only [hm, hroom, if_true]
    · simp only [hm, hroom, if_true, if_false]
  · simp only [hm, if_false, Bool.false_eq_true]
    rfl

/-- The calls that a urlencoded body takes. -/
lemma newCalls_readContent {length size : ℕ}
    (htype : r.getHeader (CString.lit "Content-Type") = some contentType)
    (hform : (bytesOf "application/x-www-form-urlencoded").isPrefixOf contentType.bytes = true)
    (hlength : r.getHeader (CString.lit "Content-Length") = some contentLength)
    (hn : sizeOfInt (atoi contentLength) = length) (hsize : (length + 1) % sizeRange = size) :
    newCalls r (redhttpRequestReadContent heap r) =
      .alloc size :: if heap.malloc size then [.fread size length] else [] := by
  have htaken : (bodyTaken r size length).calls =
      r.calls ++ [.alloc size, .fread size length] := rfl
  rw [newCalls, readContent_of_form htype hform hlength hn hsize]
  split
  · split
    · simp [bodyAsked]
    · cases formBodyRead length (r.socket.input.take length) with
      | answered status => simp [bodyResult, htaken]
      | skipped => simp [bodyResult, htaken]
      | complete body =>
        have hcalls : Keeps Request.calls
            (redhttpRequestParseArguments (some (CString.ofBytes body))) :=
          keeps_parseArguments (fun _ _ => rfl) _
        have hkeeps := keeps_bind (f := fun _ => (pure 0 : RequestM ℕ)) hcalls
          (fun _ => keeps_pure 0) (bodyTaken r size length)
        simp only [bodyResult, hkeeps, htaken, List.drop_left]
  · simp [bodyAllocated]

/-- A body that is shorter than its length, which is not negative, is refused. -/
lemma formBodyRead_of_short {length : ℕ} {data : List UInt8} (hlength : length < intRange)
    (h : data.length < length) : formBodyRead length data = .answered badRequest := by
  have hint : intOfSize data.length = data.length :=
    intOfSize_of_lt (by omega) (by exact_mod_cast h.trans hlength)
  have hsize : sizeOfInt (data.length : ℤ) = data.length := by
    rw [sizeOfInt_of_nonneg (by omega)]
    · simp
    · simp only [intRange, sizeRange] at *
      omega
  rw [formBodyRead]
  simp only [hint, hsize]
  rw [if_pos h.ne]

/-- A length that is not negative is safe for a urlencoded body. -/
lemma formReaderSound_of_nonneg
    (htype : r.getHeader (CString.lit "Content-Type") = some contentType)
    (hform : (bytesOf "application/x-www-form-urlencoded").isPrefixOf contentType.bytes = true)
    (hlength : r.getHeader (CString.lit "Content-Length") = some contentLength)
    (h : 0 ≤ atoi contentLength) : FormReaderSound heap contentLength r where
  fits := by
    have hlt := sizeOfInt_atoi_lt h
    rw [newCalls_readContent htype hform hlength rfl (formBuffer_size hlt)]
    generalize sizeOfInt (atoi contentLength) = length
    rintro room asked hmem
    split at hmem
    · simp only [List.mem_cons, reduceCtorEq, Call.fread.injEq, List.not_mem_nil, or_false,
        false_or] at hmem
      omega
    · simp at hmem
  refused := fun hneg => absurd h (by omega)
  complete := by
    intro hshort
    have hlt := sizeOfInt_atoi_lt h
    have hn := sizeOfInt_atoi h
    have hread : formBodyRead (sizeOfInt (atoi contentLength))
        (r.socket.input.take (sizeOfInt (atoi contentLength))) = .answered badRequest := by
      refine formBodyRead_of_short hlt ?_
      rw [List.length_take]
      omega
    rw [readContent_of_form htype hform hlength rfl (formBuffer_size hlt), hread]
    generalize sizeOfInt (atoi contentLength) = length
    split
    · split <;> rfl
    · rfl

end Form

/-! ### The body with data -/

section Data

variable {T R σ : Type} {w : World T R σ} {heap : Heap} {contentLength : CString}
  {c : Conn (App σ)} {r : Request}

/-- The request after the data for its body has been asked for. -/
def dataAsked (r : Request) (length : ℕ) : Request :=
  { r with calls := r.calls ++ [.alloc length, .fread length length] }

/-- The reading of a body with data, by the length declared and the bytes that have arrived. -/
lemma readDataBody_eq {length : ℕ} (hn : sizeOfInt (atoi contentLength) = length) :
    readDataBody heap (some contentLength) r =
      if length = 0 then .ok (.error (.badRequest, "Invalid content length header.")) r
      else if heap.malloc length then
        .ok (if (r.socket.input.take length).length ≠ length then
            .error (.internalServerError, "Error reading content from client.")
          else .ok (r.socket.input.take length))
          ((dataAsked r length).withInput (r.socket.input.drop length))
      else .ok (.error (.internalServerError, "Failed to allocate memory for input data."))
        { r with calls := r.calls ++ [.alloc length] } := by
  simp only [readDataBody, hn]
  by_cases hzero : length = 0
  · simp only [hzero, if_true, pure_apply]
  · simp only [hzero, if_false, bind_apply, allocBody]
    by_cases hm : heap.malloc length = true
    · have hroom : ¬ length < (r.socket.input.take length).length := by
        rw [List.length_take]
        omega
      simp only [hm, if_true, readAllocatedBody, bind_apply, fread, hroom, if_false, dataAsked,
        List.append_assoc, List.cons_append, List.nil_append, Request.withInput]
      split <;> rfl
    · simp only [hm, Bool.false_eq_true, if_false, pure_apply]

/-- A length that is not negative is safe for a body with data. -/
lemma dataReaderSound_of_nonneg
    (hlength : c.request.getHeader (CString.lit "Content-Length") = some contentLength)
    (h : 0 ≤ atoi contentLength) : DataReaderSound w contentLength c where
  fits := by
    generalize hn : sizeOfInt (atoi contentLength) = length
    rw [newCalls, readDataBody_eq hn]
    rintro room asked hmem
    split at hmem
    · simp at hmem
    · split at hmem
      · simp only [stateOf_ok, Request.withInput, dataAsked, List.drop_left, List.mem_cons,
          reduceCtorEq, Call.fread.injEq, List.not_mem_nil, or_false, false_or] at hmem
        omega
      · simp at hmem
  refused := by
    intro hle graphNode streamProc
    have hn : sizeOfInt (atoi contentLength) = 0 := by
      rw [sizeOfInt_atoi h]
      omega
    simp only [parseDataFromRequestBody, bind_apply, get_apply, onRequest, hlength,
      readDataBody_eq hn, if_true]
  complete := by
    intro hshort graphNode streamProc
    have hn := sizeOfInt_atoi h
    have hpos : (atoi contentLength).toNat ≠ 0 := by omega
    have hdata : (c.request.socket.input.take (atoi contentLength).toNat).length ≠
        (atoi contentLength).toNat := by
      rw [List.length_take]
      omega
    simp only [parseDataFromRequestBody, bind_apply, get_apply, onRequest, hlength,
      readDataBody_eq hn, hpos, if_false]
    by_cases hm : w.heap.malloc (atoi contentLength).toNat = true
    · simp only [hm, if_true, hdata, ne_eq, not_false_eq_true]
      exact ⟨_, _, rfl⟩
    · simp only [hm, Bool.false_eq_true, if_false]
      exact ⟨_, _, rfl⟩

end Data

/-! ### Both -/

/-- Both readers are sound for a Content-Length exactly when `atoi` does not find it negative,
whatever memory there is and whatever has arrived. -/
theorem bodyReaders_sound_iff {T R σ : Type} {w : World T R σ} {heap : Heap} {r : Request}
    {c : Conn (App σ)} {contentType contentLength : CString}
    (htype : r.getHeader (CString.lit "Content-Type") = some contentType)
    (hform : (bytesOf "application/x-www-form-urlencoded").isPrefixOf contentType.bytes = true)
    (hlength : r.getHeader (CString.lit "Content-Length") = some contentLength)
    (hlength' : c.request.getHeader (CString.lit "Content-Length") = some contentLength) :
    FormReaderSound heap contentLength r ∧ DataReaderSound w contentLength c ↔
      0 ≤ atoi contentLength := by
  constructor
  · rintro ⟨hsound, -⟩
    by_contra hneg
    obtain ⟨r', hread, hcalls⟩ := hsound.refused (by omega)
    have hnew : newCalls r (redhttpRequestReadContent heap r) = _ :=
      newCalls_readContent htype hform hlength rfl rfl
    rw [newCalls, hread, stateOf_ok, hcalls, List.drop_length] at hnew
    cases hnew
  · intro h
    exact ⟨formReaderSound_of_nonneg htype hform hlength h, dataReaderSound_of_nonneg hlength' h⟩

/-- A POST with a body of one byte and a Content-Length. -/
def postRequest (contentLength : CString) : Request where
  headers := [
    ⟨CString.lit "Content-Type", some (CString.lit "application/x-www-form-urlencoded")⟩,
    ⟨CString.lit "Content-Length", some contentLength⟩]
  socket := { input := bytesOf "a" }
  method := some (CString.lit "POST")
  version := some (CString.lit "1.0")

theorem bodyReaders_sound_three :
    FormReaderSound ⟨fun _ => true, fun _ => 0⟩ (CString.lit "3") (postRequest (CString.lit "3")) ∧
      DataReaderSound memoryWorld (CString.lit "3")
        ⟨postRequest (CString.lit "3"), emptyApp⟩ :=
  have htype : (postRequest (CString.lit "3")).getHeader (CString.lit "Content-Type") =
      some (CString.lit "application/x-www-form-urlencoded") := rfl
  (bodyReaders_sound_iff htype (by decide) rfl rfl).mpr (by decide)

/-- With a length of -1 the buffer has no room, and what arrives overflows it. -/
theorem redhttpRequestReadContent_minus_one_overflows :
    (∃ r', redhttpRequestReadContent ⟨fun _ => true, fun _ => 0⟩
        (postRequest (CString.lit "-1")) = .error .bufferOverflow r' ∧
        Call.fread 0 (sizeRange - 1) ∈ r'.calls) ∧
      ¬ FormReaderSound ⟨fun _ => true, fun _ => 0⟩ (CString.lit "-1")
        (postRequest (CString.lit "-1")) := by
  have hatoi : atoi (CString.lit "-1") = -1 := by decide
  have hn : sizeOfInt (atoi (CString.lit "-1")) = sizeRange - 1 := by
    rw [hatoi]
    simp [sizeOfInt, sizeRange]
  have hsize : (sizeRange - 1 + 1) % sizeRange = 0 := by simp [sizeRange]
  have htype : (postRequest (CString.lit "-1")).getHeader (CString.lit "Content-Type") =
      some (CString.lit "application/x-www-form-urlencoded") := rfl
  have hread : redhttpRequestReadContent ⟨fun _ => true, fun _ => 0⟩
      (postRequest (CString.lit "-1")) = _ :=
    readContent_of_form htype (by decide) rfl hn hsize
  have hroom : 0 < ((postRequest (CString.lit "-1")).socket.input.take (sizeRange - 1)).length := by
    rw [List.length_take]
    exact lt_min (by simp [sizeRange]) (by decide)
  rw [if_pos rfl, if_pos hroom] at hread
  refine ⟨⟨_, hread, by simp [bodyAsked]⟩, fun hsound => ?_⟩
  obtain ⟨r', hanswer, -⟩ := hsound.refused (by rw [hatoi]; decide)
  rw [hread] at hanswer
  cases hanswer

end RedStore.Service
