/-
`request.c`: reading a request from its socket.

A line is read into a buffer that is doubled when it is full.  The model keeps the whole
allocation, not only the string in it, because `redhttp_request_read_status_line` steps
over the terminator of a line that has nothing after its method: what it reads there are
the zeros of `calloc`, text behind a carriage return, or what `realloc` has left.
-/
import RedStore.RedHttp.Request

namespace RedStore.RedHttp
open CLib

/-- `BUFSIZ` of the C library. -/
def bufsiz : ℕ := 8192

/-- `REDHTTP_BAD_REQUEST`. -/
def badRequest : ℕ := 400

section ReadLine

variable (heap : Heap)

/-- The allocation that holds a finished line: what was stored, the terminator, and the
untouched rest, which is zero as long as the buffer is still the one from `calloc`. -/
def lineMemory (initial size : ℕ) (stored : List UInt8) : List UInt8 :=
  stored ++ 0 :: (List.range' (stored.length + 1) (size - (stored.length + 1))).map
    fun i => if size = initial then 0 else heap.junk i

/-- What is stored for a byte of the line: a carriage return terminates the string but
still advances the count. -/
def storedByte (c : UInt8) : UInt8 := if c = ch '\r' then 0 else c

/-- The loop of `redhttp_request_read_line` over the bytes of the socket.  `stored` are
the bytes in the buffer (`buffer_count` many) and `size` is `buffer_size`.  The result is
the line, `none` for NULL, and what is left of the input. -/
def readLineLoop (initial : ℕ) :
    List UInt8 → List UInt8 → ℕ → Except Fault (Option (List UInt8) × List UInt8)
  | [], _, _ => .ok (none, [])
  | c :: rest, stored, size =>
    if c = 0 then .ok (none, rest)
    -- every branch below stores at `buffer[buffer_count]`
    else if size ≤ stored.length then .error .bufferOverflow
    else if c = ch '\n' then .ok (some (lineMemory heap initial size stored), rest)
    -- expand buffer?
    else if size - 1 < stored.length + 1 then
      if intRange ≤ size * 2 then .error .signedOverflow
      else if heap.malloc (size * 2) then
        readLineLoop initial rest (stored ++ [storedByte c]) (size * 2)
      else .ok (none, rest)
    else readLineLoop initial rest (stored ++ [storedByte c]) size

/-- `redhttp_request_read_line` on the bytes of the socket, with the size of its first
buffer. -/
def readLineFrom (initial : ℕ) (input : List UInt8) :
    Except Fault (Option (List UInt8) × List UInt8) :=
  if heap.malloc initial then readLineLoop heap initial input [] initial
  else .ok (none, input)

/-- `redhttp_request_read_line`. -/
def redhttpRequestReadLine : RequestM (Option (List UInt8)) := fun r =>
  match readLineFrom heap bufsiz r.socket.input with
  | .ok (line, rest) => .ok line (r.withInput rest)
  | .error e => .error e r

end ReadLine

/-! ### The request line -/

/-- The three parts of a request line. -/
structure StatusLine where
  method : CString
  pathAndQuery : CString
  version : CString
deriving DecidableEq

/-- `strncmp("HTTP/", word, 5) == 0 || strncmp("http/", word, 5) == 0`. -/
def isHttpWord (word : List UInt8) : Bool :=
  (bytesOf "HTTP/").isPrefixOf word || (bytesOf "http/").isPrefixOf word

/-- The part of the request line from the path on, cut from its end. -/
def splitTarget (method : List UInt8) (s : List UInt8) : StatusLine :=
  let s := s.rdropWhile isspace
  let word := s.rtakeWhile fun c => !isspace c
  let front := s.rdropWhile fun c => !isspace c
  -- is there a version string at the end?
  if front ≠ [] ∧ isHttpWord word then
    { method := CString.ofBytes method
      pathAndQuery := CString.ofBytes (front.rdropWhile isspace)
      version := CString.ofBytes (word.drop 5) }
  else
    { method := CString.ofBytes method
      pathAndQuery := CString.ofBytes s
      version := CString.lit "0.9" }

/-- The scan of `redhttp_request_read_status_line` over the allocation of a line;
`none` is its `REDHTTP_BAD_REQUEST`. -/
def splitStatusLine (memory : List UInt8) : Except Fault (Option StatusLine) :=
  -- skip whitespace at the start
  let ptr := memory.dropWhile isspace
  -- find the end of the method
  let method := ptr.takeWhile isalpha
  match ptr.dropWhile isalpha with
  | [] => .error .outOfBounds
  | _ :: ptr =>
    -- `*ptr++ = '\0'`, whatever it was; then the start of the path and query section
    match ptr.dropWhile fun c => isspace c && c != ch '\n' with
    | [] => .error .outOfBounds
    | c :: ptr =>
      if c = ch '\n' ∨ c = 0 then .ok none
      -- `strlen` needs a terminator inside the allocation
      else if (0 : UInt8) ∉ c :: ptr then .error .outOfBounds
      else .ok (some (splitTarget method (CString.ofBytes (c :: ptr)).bytes))

/-- `redhttp_request_read_status_line`. -/
def redhttpRequestReadStatusLine (heap : Heap) : RequestM ℕ := do
  match ← redhttpRequestReadLine heap with
  | none => pure badRequest
  | some line =>
    if (CString.ofBytes line).strlen = 0 then pure badRequest
    else
      match splitStatusLine line with
      | .error e => throw e
      | .ok none => pure badRequest
      | .ok (some parts) =>
        redhttpRequestSetMethod (some parts.method)
        redhttpRequestSetPathAndQuery (some parts.pathAndQuery)
        redhttpRequestSetVersion (some parts.version)
        pure 0

/-! ### The headers -/

/-- A line takes at least one byte off the input. -/
lemma readLineLoop_rest_lt (heap : Heap) (initial : ℕ) :
    ∀ {input stored : List UInt8} {size : ℕ} {line rest : List UInt8},
      readLineLoop heap initial input stored size = .ok (some line, rest) →
      rest.length < input.length := by
  intro input
  induction input with
  | nil => intro stored size line rest h; simp [readLineLoop] at h
  | cons c input ih =>
    intro stored size line rest h
    rw [readLineLoop] at h
    split_ifs at h
    · simp at h
    · simp only [Except.ok.injEq, Prod.mk.injEq] at h
      simp [h.2]
    · exact (ih h).trans (by simp)
    · simp at h
    · exact (ih h).trans (by simp)

lemma readLineFrom_rest_lt {heap : Heap} {initial : ℕ} {input line rest : List UInt8}
    (h : readLineFrom heap initial input = .ok (some line, rest)) :
    rest.length < input.length := by
  rw [readLineFrom] at h
  split at h
  · exact readLineLoop_rest_lt heap initial h
  · simp at h

lemma redhttpRequestReadLine_input_lt {heap : Heap} {r r' : Request} {line : List UInt8}
    (h : redhttpRequestReadLine heap r = .ok (some line) r') :
    r'.socket.input.length < r.socket.input.length := by
  rw [redhttpRequestReadLine] at h
  split at h
  · next line' rest hline =>
    simp only [EStateM.Result.ok.injEq] at h
    obtain ⟨rfl, rfl⟩ := h
    exact readLineFrom_rest_lt hline
  · cases h

/-- The loop of `redhttp_request_read` that reads the headers, up to an empty line or the
end of the input. -/
def readHeadersFrom (heap : Heap) (r : Request) : EStateM.Result Fault Request Unit :=
  match _h : redhttpRequestReadLine heap r with
  | .error e r' => .error e r'
  | .ok none r' => .ok () r'
  | .ok (some line) r' =>
    if (CString.ofBytes line).strlen < 1 then .ok () r'
    else
      match redhttpHeadersParseLine r'.headers (CString.ofBytes line) with
      | .error e => .error e r'
      | .ok headers => readHeadersFrom heap { r' with headers }
termination_by r.socket.input.length
decreasing_by exact redhttpRequestReadLine_input_lt _h

/-- The header loop as a program. -/
def readHeaders (heap : Heap) : RequestM Unit := readHeadersFrom heap

/-! ### The body -/

/-- How the reading of a body ends. -/
inductive BodyRead where
  /-- The request is answered with a status right away. -/
  | answered (status : ℕ)
  /-- There was no buffer, and the body is passed over. -/
  | skipped
  /-- The buffer is passed on as the body. -/
  | complete (body : List UInt8)
deriving DecidableEq

/-- `fread(buffer, 1, asked, socket)` into a buffer with the given room. -/
def fread (room asked : ℕ) : RequestM (List UInt8) := fun r =>
  let data := r.socket.input.take asked
  let r := { r with calls := r.calls ++ [.fread room asked] }
  if room < data.length then .error .bufferOverflow r
  else .ok data (r.withInput (r.socket.input.drop asked))

/-- An allocation for a body. -/
def allocBody (heap : Heap) (size : ℕ) : RequestM Bool := fun r =>
  .ok (heap.malloc size) { r with calls := r.calls ++ [.alloc size] }

/-- The check of what `fread` returned: `bytes_read` is an `int`, and `bytes_read !=
request->content_length` compares it as a `size_t`. -/
def formBodyRead (length : ℕ) (data : List UInt8) : BodyRead :=
  let bytesRead := intOfSize data.length
  if sizeOfInt bytesRead ≠ length then .answered badRequest else .complete data

/-- `redhttp_request_read` on a urlencoded body, up to the check that it is complete. -/
def readFormBody (heap : Heap) (contentLength : CString) : RequestM BodyRead := do
  let length := sizeOfInt (atoi contentLength)
  modify fun r => { r with contentLength := length }
  let size := (length + 1) % sizeRange
  if ← allocBody heap size then
    let data ← fread size length
    modify fun r => { r with contentBuffer := some data }
    pure (formBodyRead length data)
  else pure .skipped

/-- The request once a buffer for its body has been asked for. -/
def bodyAllocated (r : Request) (size length : ℕ) : Request :=
  { r with contentLength := length, calls := r.calls ++ [.alloc size] }

/-- The request once its body has been asked for. -/
def bodyAsked (r : Request) (size length : ℕ) : Request :=
  { r with contentLength := length, calls := r.calls ++ [.alloc size, .fread size length] }

/-- The request once its body is there. -/
def bodyTaken (r : Request) (size length : ℕ) : Request :=
  { (bodyAsked r size length).withInput (r.socket.input.drop length) with
    contentBuffer := some (r.socket.input.take length) }

/-- How the reading of a urlencoded body ends, by the buffer there is for it and by the
bytes that have arrived. -/
lemma readFormBody_eq {heap : Heap} {contentLength : CString} {length size : ℕ}
    (hn : sizeOfInt (atoi contentLength) = length) (hsize : (length + 1) % sizeRange = size)
    (r : Request) :
    readFormBody heap contentLength r =
      if heap.malloc size then
        if size < (r.socket.input.take length).length then
          .error .bufferOverflow (bodyAsked r size length)
        else .ok (formBodyRead length (r.socket.input.take length)) (bodyTaken r size length)
      else .ok .skipped (bodyAllocated r size length) := by
  unfold readFormBody
  dsimp only
  rw [hn, hsize]
  simp only [bind_apply, modify_apply, allocBody]
  by_cases hm : heap.malloc size = true
  · simp only [hm, if_true, bind_apply, fread]
    by_cases hroom : size < (r.socket.input.take length).length
    · simp only [hroom, if_true]
      simp [bodyAsked]
    · simp only [hroom, if_false]
      simp [bodyTaken, bodyAsked, Request.withInput]
  · simp [hm, bodyAllocated]

/-- The part of `redhttp_request_read` that is concerned with a POST. -/
def redhttpRequestReadContent (heap : Heap) : RequestM ℕ := do
  let r ← get
  match r.getHeader (CString.lit "Content-Type"), r.getHeader (CString.lit "Content-Length") with
  | some contentType, some contentLength =>
    if (bytesOf "application/x-www-form-urlencoded").isPrefixOf contentType.bytes then
      match ← readFormBody heap contentLength with
      | .answered status => pure status
      | .skipped => pure 0
      | .complete body =>
        redhttpRequestParseArguments (some (CString.ofBytes body))
        pure 0
    else pure 0
  | _, _ => pure badRequest

/-- `request->version && strncmp(request->version, "0.9", 3) != 0`. -/
def Request.hasHeaders (r : Request) : Bool :=
  r.version.any fun version => !(bytesOf "0.9").isPrefixOf version.bytes

/-- `strncmp(request->method, "POST", 4) == 0`. -/
def Request.isPost (r : Request) : Bool :=
  r.method.any fun method => (bytesOf "POST").isPrefixOf method.bytes

/-- The part of `redhttp_request_read` behind the request line. -/
def redhttpRequestReadRest (heap : Heap) : RequestM ℕ := do
  if (← get).hasHeaders then
    readHeaders heap
    -- read in PUT/POST content
    if (← get).isPost then redhttpRequestReadContent heap
    else pure 0
  else pure 0

/-- `redhttp_request_read`. -/
def redhttpRequestRead (heap : Heap) : RequestM ℕ := do
  let result ← redhttpRequestReadStatusLine heap
  if result ≠ 0 then pure result
  else redhttpRequestReadRest heap

lemma redhttpRequestRead_of_statusLine {heap : Heap} {r r' : Request}
    (h : redhttpRequestReadStatusLine heap r = .ok 0 r') :
    redhttpRequestRead heap r = redhttpRequestReadRest heap r' := by
  rw [redhttpRequestRead, bind_of_ok h, if_neg (by simp)]

end RedStore.RedHttp
