/-
Reading a request undoes writing it.

A request as a client writes it is a method, a target, a version, header lines, an empty
line and whatever follows, where each line ends in LF or CRLF as it likes
(`RequestText`).  Reading its bytes gives the parts back, exactly when every line gets
through the line buffer: the size of that buffer is an `int` that is doubled as the line
grows, and from 2^30 bytes on it overflows.
-/
import RedStore.RedHttp.ReadLine
import RedStore.RedHttp.RequestLine

namespace RedStore.RedHttp
open CLib

/-! ### A request as it is written -/

/-- A header line. -/
structure HeaderLine where
  key : CString
  value : CString
  crlf : Bool
  key_ne : key.bytes ≠ []
  key_text : ∀ c ∈ key.bytes, c ≠ ch ':' ∧ c ≠ ch '\r' ∧ c ≠ ch '\n'
  value_start : ∃ c rest, value.bytes = c :: rest ∧ isspace c = false
  value_text : ∀ c ∈ value.bytes, c ≠ ch '\r' ∧ c ≠ ch '\n'

namespace HeaderLine

variable (h : HeaderLine)

/-- `key: value`. -/
def text : List UInt8 := h.key.bytes ++ bytesOf ": " ++ h.value.bytes

def bytes : List UInt8 := h.text ++ eol h.crlf

/-- The entry that the line is written for. -/
def header : Header := ⟨h.key, some h.value⟩

end HeaderLine

/-- A request as a client writes it. -/
structure RequestText where
  method : CString
  target : CString
  version : CString
  crlf : Bool
  headers : List HeaderLine
  lastCrlf : Bool
  further : List UInt8
  method_ne : method.bytes ≠ []
  method_alpha : ∀ c ∈ method.bytes, isalpha c = true
  /-- The method is not a longer word that begins with POST. -/
  method_post : (bytesOf "POST").isPrefixOf (method.bytes.map toupper) = true →
    method.bytes.map toupper = bytesOf "POST"
  target_start : ∃ c rest, target.bytes = c :: rest ∧ isspace c = false
  target_end : ∃ front c, target.bytes = front ++ [c] ∧ isspace c = false
  target_text : ∀ c ∈ target.bytes, c ≠ ch '\r' ∧ c ≠ ch '\n'
  target_keys : KeysNonEmpty (queryBytes target)
  version_word : ∀ c ∈ version.bytes, isspace c = false
  version_new : (bytesOf "0.9").isPrefixOf version.bytes = false

/-- The fields of a request that its request line and its headers determine. -/
structure RequestHead where
  method : Option CString
  pathAndQuery : Option CString
  path : Option CString
  queryString : Option CString
  version : Option CString
  headers : List Header

def Request.head (r : Request) : RequestHead :=
  ⟨r.method, r.pathAndQuery, r.path, r.queryString, r.version, r.headers⟩

namespace RequestText

variable (w : RequestText)

/-- The target and the version, as they follow the method. -/
def targetText : List UInt8 := w.target.bytes ++ ch ' ' :: (bytesOf "HTTP/" ++ w.version.bytes)

/-- `m t HTTP/v`. -/
def line : List UInt8 := w.method.bytes ++ ch ' ' :: w.targetText

def bytes : List UInt8 :=
  w.line ++ eol w.crlf ++ (w.headers.flatMap HeaderLine.bytes ++ (eol w.lastCrlf ++ w.further))

/-- The method in upper case. -/
def upperMethod : CString :=
  ⟨w.method.bytes.map toupper, fun h => by
    obtain ⟨c, hc, h0⟩ := List.mem_map.mp h
    exact toupper_ne_zero (fun hc0 => w.method.nul_free (hc0 ▸ hc)) h0⟩

/-- What a reader should find. -/
def head : RequestHead where
  method := some w.upperMethod
  pathAndQuery := some w.target
  path := some (pathOf w.target)
  queryString := queryStringOf w.target
  version := some w.version
  headers := w.headers.map HeaderLine.header

/-- The request line and every header line get through the line buffer. -/
def LinesReadable (heap : Heap) : Prop :=
  Readable heap (bufferedText w.line w.crlf).length ∧
    ∀ h ∈ w.headers, Readable heap (bufferedText h.text h.crlf).length

/-- The request is not a POST, or it has a length and is not a form. -/
def LeavesBody : Prop :=
  w.method.bytes.map toupper ≠ bytesOf "POST" ∨
    (redhttpHeadersGet w.head.headers (CString.lit "Content-Length")).isSome = true ∧
      ∃ contentType, redhttpHeadersGet w.head.headers (CString.lit "Content-Type") =
          some contentType ∧
        (bytesOf "application/x-www-form-urlencoded").isPrefixOf contentType.bytes = false

/-- Reading the request finds its parts, and, where the body is not read as well, ends well
with the arguments of the query and the further bytes still to come. -/
def ReadsBack (heap : Heap) (r : Request) : Prop :=
  (stateOf (redhttpRequestRead heap r)).head = w.head ∧
    (w.LeavesBody → ∃ r', redhttpRequestRead heap r = .ok 0 r' ∧
      r'.arguments = (argumentSegments (queryBytes w.target)).map segmentHeader ∧
      r'.socket.input = w.further)

end RequestText

/-! ### Header lines -/

namespace HeaderLine

variable (h : HeaderLine)

lemma lineText : LineText h.text := by
  intro c hc
  simp only [text, List.mem_append] at hc
  rcases hc with (hc | hc) | hc
  · exact ⟨fun h0 => h.key.nul_free (h0 ▸ hc), (h.key_text c hc).2⟩
  · exact forall_mem_of_all (p := fun c => c ≠ 0 ∧ c ≠ ch '\r' ∧ c ≠ ch '\n') (by decide) c hc
  · exact ⟨fun h0 => h.value.nul_free (h0 ▸ hc), h.value_text c hc⟩

/-- The string that the line is read as. -/
def string : CString := ⟨h.text, fun h0 => (h.lineText 0 h0).1 rfl⟩

@[simp] lemma bytes_string : h.string.bytes = h.text := rfl

lemma key_ne_colon : ∀ c ∈ h.key.bytes, (c != ch ':') = true := by
  intro c hc
  simpa using (h.key_text c hc).1

lemma text_eq : h.text = h.key.bytes ++ ch ':' :: ch ' ' :: h.value.bytes := by
  simp [text, bytesOf]

lemma lineKeyNonEmpty : LineKeyNonEmpty h.string := by
  obtain ⟨c, key, hkey⟩ := List.exists_cons_of_ne_nil h.key_ne
  have hc : c ≠ ch ':' := (h.key_text c (by simp [hkey])).1
  have hbytes : h.string.bytes = c :: (key ++ ch ':' :: ch ' ' :: h.value.bytes) := by
    simp [text_eq, hkey]
  rw [LineKeyNonEmpty]
  split
  · trivial
  · next c' rest hline =>
    rw [hbytes] at hline
    simp only [List.cons.injEq] at hline
    exact fun heq => absurd (hline.1.trans heq) hc

/-- The line is parsed to the entry that it was written for. -/
lemma headerOfLine_string : headerOfLine h.string = some h.header := by
  obtain ⟨c, rest, hvalue, hc⟩ := h.value_start
  have hspace : isspace (ch ' ') = true := by decide
  have hdrop : h.string.bytes.dropWhile (· != ch ':') = ch ':' :: ch ' ' :: h.value.bytes := by
    rw [bytes_string, text_eq, List.dropWhile_append_of_pos h.key_ne_colon]
    simp
  have htake : h.string.bytes.takeWhile (· != ch ':') = h.key.bytes := by
    rw [bytes_string, text_eq, List.takeWhile_append_of_pos h.key_ne_colon]
    simp
  have hval : (ch ' ' :: h.value.bytes).dropWhile isspace = h.value.bytes := by
    rw [List.dropWhile_cons_of_pos hspace, hvalue,
      List.dropWhile_cons_of_neg (by simp [hc])]
  have hne : h.value.bytes ≠ [] := by simp [hvalue]
  simp only [headerOfLine, hdrop, hval, hne, if_false, htake, CString.ofBytes_bytes, header]

lemma strlen_string_ne_zero : h.string.strlen ≠ 0 := by
  simp [CString.strlen, text_eq]

end HeaderLine

lemma filterMap_headerOfLine (hs : List HeaderLine) :
    (hs.map HeaderLine.string).filterMap headerOfLine = hs.map HeaderLine.header := by
  induction hs with
  | nil => rfl
  | cons h hs ih => simp [HeaderLine.headerOfLine_string, ih]

section Block

variable {heap : Heap} {further : List UInt8}

lemma headerBlock_cons_of_readable {h : HeaderLine}
    (hread : Readable heap (bufferedText h.text h.crlf).length) (rest : List UInt8) :
    headerBlock heap (h.bytes ++ rest) =
      ⟨h.string :: (headerBlock heap rest).lines, (headerBlock heap rest).rest⟩ := by
  obtain ⟨behind, hline⟩ := readLineFrom_of_readable h.lineText h.crlf rest hread
  have hstring : CString.ofBytes (h.text ++ 0 :: behind) = h.string :=
    CString.ext (ofBytes_line h.lineText behind)
  have hne := h.strlen_string_ne_zero
  rw [← hstring] at hne ⊢
  exact headerBlock_of_line hline hne

lemma headerBlock_cons_of_not_readable {h : HeaderLine}
    (hread : ¬ Readable heap (bufferedText h.text h.crlf).length) (rest : List UInt8) :
    (headerBlock heap (h.bytes ++ rest)).lines = [] := by
  rcases readLineFrom_of_not_readable h.lineText h.crlf rest hread with he | ⟨rest', hn⟩
  · rw [HeaderLine.bytes, headerBlock_of_error he]
  · rw [HeaderLine.bytes, headerBlock_of_none hn]

lemma headerBlock_eol (hmalloc : heap.malloc bufsiz = true) (crlf : Bool) :
    headerBlock heap (eol crlf ++ further) = ⟨[], .ok further⟩ := by
  have htext : LineText [] := by simp [LineText]
  have hread : Readable heap (bufferedText [] crlf).length :=
    ⟨hmalloc, room_of_lt (by cases crlf <;> decide)⟩
  obtain ⟨behind, hline⟩ := readLineFrom_of_readable htext crlf further hread
  exact headerBlock_of_empty hline (by
    rw [CString.strlen, ofBytes_line htext, List.length_nil])

/-- The block of readable lines is read up to its empty line. -/
lemma headerBlock_of_readable (hmalloc : heap.malloc bufsiz = true) (crlf : Bool)
    {hs : List HeaderLine} (h : ∀ h ∈ hs, Readable heap (bufferedText h.text h.crlf).length) :
    headerBlock heap (hs.flatMap HeaderLine.bytes ++ (eol crlf ++ further)) =
      ⟨hs.map HeaderLine.string, .ok further⟩ := by
  induction hs with
  | nil => exact headerBlock_eol hmalloc crlf
  | cons h₀ hs ih =>
    rw [List.flatMap_cons, List.append_assoc, headerBlock_cons_of_readable (h h₀ (by simp)),
      ih fun h' hh' => h h' (by simp [hh'])]
    rfl

/-- A line that cannot be read ends the block early. -/
lemma headerBlock_of_not_readable (further : List UInt8) {hs : List HeaderLine}
    (h : ¬ ∀ h ∈ hs, Readable heap (bufferedText h.text h.crlf).length) :
    ∃ pre h₀ post, hs = pre ++ h₀ :: post ∧
      (headerBlock heap (hs.flatMap HeaderLine.bytes ++ further)).lines =
        pre.map HeaderLine.string := by
  induction hs with
  | nil => simp at h
  | cons h₀ hs ih =>
    by_cases hread : Readable heap (bufferedText h₀.text h₀.crlf).length
    · obtain ⟨pre, h₁, post, hsplit, hlines⟩ := ih (by simpa [hread] using h)
      refine ⟨h₀ :: pre, h₁, post, by rw [hsplit, List.cons_append], ?_⟩
      rw [List.flatMap_cons, List.append_assoc, headerBlock_cons_of_readable hread, hlines,
        List.map_cons]
    · refine ⟨[], h₀, hs, rfl, ?_⟩
      rw [List.flatMap_cons, List.append_assoc, headerBlock_cons_of_not_readable hread,
        List.map_nil]

end Block

/-! ### The request line -/

lemma rdropWhile_append {p : UInt8 → Bool} {front word : List UInt8}
    (h : ∀ c ∈ word, p c = true) : (front ++ word).rdropWhile p = front.rdropWhile p := by
  rw [List.rdropWhile, List.reverse_append,
    List.dropWhile_append_of_pos fun c hc => h c (List.mem_reverse.mp hc), List.rdropWhile]

lemma rtakeWhile_append {p : UInt8 → Bool} {front word : List UInt8} {e : UInt8}
    (he : p e = false) (h : ∀ c ∈ word, p c = true) :
    (front ++ [e] ++ word).rtakeWhile p = word := by
  rw [List.rtakeWhile, List.reverse_append,
    List.takeWhile_append_of_pos fun c hc => h c (List.mem_reverse.mp hc)]
  simp [he]

namespace RequestText

variable (w : RequestText)

lemma targetText_ne_zero : (0 : UInt8) ∉ w.targetText := by
  simp only [targetText, List.mem_append, List.mem_cons, not_or]
  exact ⟨w.target.nul_free, by decide, by decide, w.version.nul_free⟩

lemma lineText : LineText w.line := by
  intro c hc
  have hspace : ∀ c, isspace c = false → c ≠ ch '\r' ∧ c ≠ ch '\n' := by
    rintro c hc
    constructor <;> rintro rfl <;> simp [isspace, ch] at hc
  simp only [line, targetText, List.mem_append, List.mem_cons] at hc
  rcases hc with hc | rfl | hc | rfl | hc | hc
  · have halpha := w.method_alpha c hc
    exact ⟨ne_zero_of_isalpha halpha, hspace c (not_isspace_of_isalpha halpha)⟩
  · decide
  · exact ⟨fun h0 => w.target.nul_free (h0 ▸ hc), w.target_text c hc⟩
  · decide
  · exact forall_mem_of_all (p := fun c => c ≠ 0 ∧ c ≠ ch '\r' ∧ c ≠ ch '\n') (by decide) c hc
  · exact ⟨fun h0 => w.version.nul_free (h0 ▸ hc), hspace c (w.version_word c hc)⟩

/-- Cutting the rest of the line from its end finds the target and the version. -/
lemma splitTarget_targetText :
    splitTarget w.method.bytes w.targetText = ⟨w.method, w.target, w.version⟩ := by
  obtain ⟨front, e, htarget, he⟩ := w.target_end
  set word := bytesOf "HTTP/" ++ w.version.bytes with hword_eq
  have hword : ∀ c ∈ word, isspace c = false := by
    intro c hc
    rcases List.mem_append.mp hc with hc | hc
    · exact forall_mem_of_all (p := fun c => isspace c = false) (by decide) c hc
    · exact w.version_word c hc
  have hne : word ≠ [] := by simp [hword_eq, bytesOf]
  have htext : w.targetText = w.target.bytes ++ [ch ' '] ++ word := by
    simp [targetText, hword_eq]
  have htrim : w.targetText.rdropWhile isspace = w.targetText := by
    have hlast := hword _ (List.getLast_mem hne)
    rw [htext, ← List.dropLast_append_getLast hne, ← List.append_assoc]
    exact List.rdropWhile_concat_neg _ _ _ (by simp [hlast])
  have hlast : w.targetText.rtakeWhile (fun c => !isspace c) = word := by
    rw [htext]
    exact rtakeWhile_append (by decide) fun c hc => by simp [hword c hc]
  have hfront : w.targetText.rdropWhile (fun c => !isspace c) = w.target.bytes ++ [ch ' '] := by
    rw [htext, rdropWhile_append fun c hc => by simp [hword c hc]]
    exact List.rdropWhile_concat_neg _ _ _ (by decide)
  have hpath : (w.target.bytes ++ [ch ' ']).rdropWhile isspace = w.target.bytes := by
    rw [List.rdropWhile_concat_pos _ _ _ (by decide), htarget]
    exact List.rdropWhile_concat_neg _ _ _ (by simp [he])
  have hhttp : isHttpWord word = true := by
    have hpre : bytesOf "HTTP/" <+: word := ⟨_, rfl⟩
    simp [isHttpWord, List.isPrefixOf_iff_prefix.mpr hpre]
  have hversion : word.drop 5 = w.version.bytes := rfl
  simp only [splitTarget, htrim, hlast, hfront, hpath, hhttp, hversion, CString.ofBytes_bytes,
    ne_eq, List.append_ne_nil_of_right_ne_nil, not_false_eq_true, and_self, if_true,
    List.cons_ne_self]

/-- The scan over the line finds the parts of the request. -/
lemma splitStatusLine_line (behind : List UInt8) :
    splitStatusLine (w.line ++ 0 :: behind) = .ok (some ⟨w.method, w.target, w.version⟩) := by
  obtain ⟨m, method, hmethod⟩ := List.exists_cons_of_ne_nil w.method_ne
  obtain ⟨c, target, htarget, hc⟩ := w.target_start
  have hm : isspace m = false := not_isspace_of_isalpha (w.method_alpha m (by simp [hmethod]))
  have hline : w.line ++ 0 :: behind =
      w.method.bytes ++ (ch ' ' :: (w.targetText ++ 0 :: behind)) := by simp [line]
  have hstart : (w.line ++ 0 :: behind).dropWhile isspace = w.line ++ 0 :: behind := by
    rw [hline, hmethod, List.cons_append, List.dropWhile_cons_of_neg (by simp [hm])]
  have htake : (w.line ++ 0 :: behind).takeWhile isalpha = w.method.bytes := by
    rw [hline, List.takeWhile_append_of_pos w.method_alpha,
      List.takeWhile_cons_of_neg (by decide), List.append_nil]
  have hdrop : (w.line ++ 0 :: behind).dropWhile isalpha =
      ch ' ' :: (w.targetText ++ 0 :: behind) := by
    rw [hline, List.dropWhile_append_of_pos w.method_alpha,
      List.dropWhile_cons_of_neg (by decide)]
  have htext : w.targetText ++ 0 :: behind =
      c :: (target ++ ch ' ' :: (bytesOf "HTTP/" ++ w.version.bytes) ++ 0 :: behind) := by
    simp [targetText, htarget]
  have hskip : (w.targetText ++ 0 :: behind).dropWhile (fun c => isspace c && c != ch '\n') =
      w.targetText ++ 0 :: behind := by
    rw [htext, List.dropWhile_cons_of_neg (by simp [hc])]
  have hcn : ¬ (c = ch '\n' ∨ c = 0) := by
    rintro (rfl | rfl)
    · simp [isspace, ch] at hc
    · exact w.target.nul_free (by simp [htarget])
  have hnul : ¬ (0 : UInt8) ∉ w.targetText ++ 0 :: behind := by simp
  have hbytes := CString.bytes_ofBytes_append_zero w.targetText_ne_zero behind
  rw [splitStatusLine]
  simp only [hstart, htake, hdrop, hskip]
  rw [htext] at hnul hbytes ⊢
  simp only [hcn, hnul, if_false, hbytes, splitTarget_targetText]

variable {w} {heap : Heap}

/-- A readable request line is accepted, with the parts that it was written from. -/
lemma requestLine_bytes (h : Readable heap (bufferedText w.line w.crlf).length) :
    requestLine heap w.bytes = some (⟨w.method, w.target, w.version⟩,
      w.headers.flatMap HeaderLine.bytes ++ (eol w.lastCrlf ++ w.further)) := by
  obtain ⟨behind, hline⟩ := readLineFrom_of_readable w.lineText w.crlf
    (w.headers.flatMap HeaderLine.bytes ++ (eol w.lastCrlf ++ w.further)) h
  have hlen : (CString.ofBytes (w.line ++ 0 :: behind)).strlen ≠ 0 := by
    rw [CString.strlen, ofBytes_line w.lineText]
    simp [line]
  rw [requestLine, bytes, hline]
  simp only [hlen, if_false, splitStatusLine_line]

end RequestText

/-! ### The body leaves the head alone -/

section Body

variable {γ : Type} {proj : Request → γ}
  (hproj : ∀ r arguments input contentBuffer contentLength calls,
    proj { r with arguments, socket := { r.socket with input }, contentBuffer, contentLength,
                  calls } = proj r)
include hproj

lemma keeps_readFormBody (heap : Heap) (contentLength : CString) :
    Keeps proj (readFormBody heap contentLength) := by
  intro r
  generalize hn : sizeOfInt (atoi contentLength) = length
  generalize hsize : (length + 1) % sizeRange = size
  rw [readFormBody_eq hn hsize]
  split
  · split <;> exact hproj r _ _ _ _ _
  · exact hproj r _ _ _ _ _

/-- Reading a body changes the arguments and what concerns the body, and nothing else. -/
lemma keeps_readContent (heap : Heap) : Keeps proj (redhttpRequestReadContent heap) := by
  refine keeps_bind keeps_get fun r => ?_
  split
  · refine keeps_ite (keeps_bind (keeps_readFormBody hproj heap _) fun result => ?_)
      (keeps_pure 0)
    cases result with
    | answered status => exact keeps_pure status
    | skipped => exact keeps_pure 0
    | complete body =>
      exact keeps_bind (keeps_parseArguments (fun r arguments =>
        hproj r arguments r.socket.input r.contentBuffer r.contentLength r.calls) _)
        fun _ => keeps_pure 0
  · exact keeps_pure badRequest

end Body

lemma keeps_head_readContent (heap : Heap) :
    Keeps Request.head (redhttpRequestReadContent heap) :=
  keeps_readContent (fun _ _ _ _ _ _ => rfl) heap

/-- The headers of a request are those of its header block, whatever becomes of the rest. -/
lemma headers_readRest {heap : Heap} {r : Request} (hhas : r.hasHeaders = true)
    (hkeys : ∀ line ∈ (headerBlock heap r.socket.input).lines, LineKeyNonEmpty line) :
    (stateOf (redhttpRequestReadRest heap r)).headers =
      r.headers ++ (headerBlock heap r.socket.input).lines.filterMap headerOfLine := by
  have hres := readHeadersFrom_of_keys heap r hkeys
  have hcontent : Keeps Request.head (do
      if (← get).isPost then redhttpRequestReadContent heap else pure 0 : RequestM ℕ) :=
    keeps_bind keeps_get fun _ => keeps_ite (keeps_head_readContent heap) (keeps_pure 0)
  rw [redhttpRequestReadRest, bind_of_ok (get_apply r), if_pos hhas, bind_apply, readHeaders]
  rw [readHeadersResult] at hres
  split at hres
  · rw [hres]
    exact congrArg RequestHead.headers (hcontent _)
  · obtain ⟨input, hres⟩ := hres
    rw [hres]
    rfl

/-! ### What reading leaves alone -/

/-- Reading the headers changes the headers and the input. -/
lemma keeps_readHeaders {γ : Type} {proj : Request → γ}
    (hproj : ∀ r input headers,
      proj { r with headers, socket := { r.socket with input } } = proj r) (heap : Heap) :
    Keeps proj (readHeaders heap) := by
  intro r
  show proj (stateOf (readHeadersFrom heap r)) = proj r
  induction hn : r.socket.input.length using Nat.strong_induction_on generalizing r with
  | _ n ih =>
    subst hn
    rcases hline : readLineFrom heap bufsiz r.socket.input with e | ⟨_ | line, rest⟩
    · rw [readHeadersFrom_of_error hline]
      rfl
    · rw [readHeadersFrom_of_none hline]
      exact hproj r rest r.headers
    · by_cases hl : (CString.ofBytes line).strlen = 0
      · rw [readHeadersFrom_of_empty hline hl]
        exact hproj r rest r.headers
      · rw [readHeadersFrom_of_line hline hl]
        cases redhttpHeadersParseLine r.headers (CString.ofBytes line) with
        | error e => exact hproj r rest r.headers
        | ok headers =>
          exact (ih rest.length (readLineFrom_rest_lt hline) { r.withInput rest with headers }
            rfl).trans (hproj r rest headers)

/-- Setting the path and the query changes these and the arguments. -/
lemma keeps_setPathAndQuery {γ : Type} {proj : Request → γ}
    (hproj : ∀ r pathAndQuery path queryString arguments,
      proj { r with pathAndQuery, path, queryString, arguments } = proj r)
    (target : Option CString) : Keeps proj (redhttpRequestSetPathAndQuery target) := by
  have hset : ∀ (r : Request) pathAndQuery path queryString,
      proj { r with pathAndQuery, path, queryString } = proj r :=
    fun r pathAndQuery path queryString => hproj r pathAndQuery path queryString r.arguments
  cases target with
  | none => exact keeps_modify fun r => hset r none r.path r.queryString
  | some target =>
    refine keeps_bind (keeps_modify fun r => hset r _ r.path r.queryString) fun _ => ?_
    split
    · refine keeps_bind (keeps_modify fun r => hset r r.pathAndQuery r.path _) fun _ => ?_
      exact keeps_bind (keeps_parseArguments
        (fun r arguments => hproj r r.pathAndQuery r.path r.queryString arguments) _)
        fun _ => keeps_modify fun r => hset r r.pathAndQuery _ r.queryString
    · exact keeps_modify fun r => hset r r.pathAndQuery _ r.queryString

/-- Reading the request line changes what it sets and the input. -/
lemma keeps_readStatusLine {γ : Type} {proj : Request → γ}
    (hproj : ∀ r input method pathAndQuery path queryString version arguments,
      proj { r with method, pathAndQuery, path, queryString, version, arguments,
                    socket := { r.socket with input } } = proj r) (heap : Heap) :
    Keeps proj (redhttpRequestReadStatusLine heap) := by
  have hinput : ∀ (r : Request) input, proj (r.withInput input) = proj r := fun r input =>
    hproj r input r.method r.pathAndQuery r.path r.queryString r.version r.arguments
  refine keeps_bind (fun r => ?_) fun line => ?_
  · rw [redhttpRequestReadLine]
    split
    · exact hinput r _
    · rfl
  · cases line with
    | none => exact keeps_pure badRequest
    | some line =>
      refine keeps_ite (keeps_pure badRequest) ?_
      split
      · exact keeps_throw _
      · exact keeps_pure badRequest
      · refine keeps_bind (keeps_modify fun r => hproj r r.socket.input _ r.pathAndQuery r.path
          r.queryString r.version r.arguments) fun _ => ?_
        refine keeps_bind (keeps_setPathAndQuery (fun r pathAndQuery path queryString arguments =>
          hproj r r.socket.input r.method pathAndQuery path queryString r.version arguments) _)
          fun _ => ?_
        exact keeps_bind (keeps_modify fun r => hproj r r.socket.input r.method r.pathAndQuery
          r.path r.queryString _ r.arguments) fun _ => keeps_pure 0

/-- The part of a request that is set when the connection is made or when it is answered. -/
structure ConnectionSide where
  output : List UInt8
  signature : Option CString
  pathGlob : Pointer CString
  host : Option CString
  url : Option CString

def Request.connectionSide (r : Request) : ConnectionSide :=
  ⟨r.socket.output, r.serverSignature, r.pathGlob, r.host, r.url⟩

/-- Nothing is written while a request is read, and nothing is remembered of an answer. -/
theorem keeps_read (heap : Heap) : Keeps Request.connectionSide (redhttpRequestRead heap) := by
  have hcontent : Keeps Request.connectionSide (redhttpRequestReadContent heap) :=
    keeps_readContent (fun _ _ _ _ _ _ => rfl) heap
  have hstatusLine : Keeps Request.connectionSide (redhttpRequestReadStatusLine heap) :=
    keeps_readStatusLine (fun _ _ _ _ _ _ _ _ => rfl) heap
  refine keeps_bind hstatusLine fun result => keeps_ite (keeps_pure _) ?_
  refine keeps_bind keeps_get fun _ => keeps_ite ?_ (keeps_pure 0)
  exact keeps_bind (keeps_readHeaders (fun _ _ _ => rfl) heap) fun _ =>
    keeps_bind keeps_get fun _ => keeps_ite hcontent (keeps_pure 0)

/-- A request line that is not accepted sets no method. -/
lemma readStatusLine_refused (heap : Heap) :
    Triple (fun r : Request => r.method = none) (redhttpRequestReadStatusLine heap)
      (fun n r => n ≠ 0 → r.method = none) fun _ => True := by
  intro r hr
  simp only [redhttpRequestReadStatusLine, bind_apply, redhttpRequestReadLine]
  rcases readLineFrom heap bufsiz r.socket.input with e | ⟨_ | line, rest⟩
  · trivial
  · exact fun _ => hr
  · dsimp only
    split_ifs
    · exact fun _ => hr
    · rcases splitStatusLine line with e | _ | parts
      · trivial
      · exact fun _ => hr
      · simp only [bind_apply, redhttpRequestSetMethod, modify_apply]
        by_cases hkeys : KeysNonEmpty (queryBytes parts.pathAndQuery)
        · simp only [setPathAndQuery_of_keys hkeys, redhttpRequestSetVersion, modify_apply,
            pure_apply]
          exact fun hn => absurd rfl hn
        · obtain ⟨r', hr'⟩ := setPathAndQuery_of_not_keys hkeys
            { r.withInput rest with method := some (storedMethod parts.method) }
          simp only [Option.map_some, hr']

/-- A request that is refused has no method, or is a POST. -/
theorem read_refused (heap : Heap) :
    Triple (fun r : Request => r.method = none) (redhttpRequestRead heap)
      (fun n r => n ≠ 0 → r.method = none ∨ r.isPost = true) fun _ => True := by
  refine triple_bind (readStatusLine_refused heap) fun n => ?_
  by_cases hn : n = 0
  · rw [if_neg (by simp [hn])]
    refine triple_get_bind fun r _ => triple_ite ?_ (triple_pure fun _ _ hzero => absurd rfl hzero)
    refine triple_bind (Q := fun _ _ => True) (fun r _ => ?_) fun _ => ?_
    · cases readHeaders heap r <;> trivial
    · refine triple_get_bind fun r₁ _ => ?_
      by_cases hpost : r₁.isPost = true
      · rw [if_pos hpost]
        rintro r rfl
        have hkeeps : Keeps Request.method (redhttpRequestReadContent heap) :=
          keeps_readContent (fun _ _ _ _ _ _ => rfl) heap
        have hmethod := hkeeps r
        cases hrun : redhttpRequestReadContent heap r with
        | error e r' => trivial
        | ok n r' =>
          rw [hrun, stateOf_ok] at hmethod
          exact fun _ => Or.inr (by rwa [Request.isPost, hmethod])
      · rw [if_neg hpost]
        exact triple_pure fun _ _ hzero => absurd rfl hzero
  · rw [if_pos hn]
    exact triple_pure fun r hr _ => Or.inl (hr hn)

/-- The path of a request is that of its target. -/
def Request.PathOfTarget (r : Request) : Prop := r.path = r.pathAndQuery.map pathOf

lemma readStatusLine_path (heap : Heap) : Triple Request.PathOfTarget
    (redhttpRequestReadStatusLine heap) (fun _ => Request.PathOfTarget) fun _ => True := by
  intro r hr
  simp only [redhttpRequestReadStatusLine, bind_apply, redhttpRequestReadLine]
  rcases readLineFrom heap bufsiz r.socket.input with e | ⟨_ | line, rest⟩
  · trivial
  · exact hr
  · dsimp only
    split_ifs
    · exact hr
    · rcases splitStatusLine line with e | _ | parts
      · trivial
      · exact hr
      · simp only [bind_apply, redhttpRequestSetMethod, modify_apply]
        by_cases hkeys : KeysNonEmpty (queryBytes parts.pathAndQuery)
        · simp only [setPathAndQuery_of_keys hkeys, redhttpRequestSetVersion, modify_apply,
            pure_apply]
          rfl
        · obtain ⟨r', hr'⟩ := setPathAndQuery_of_not_keys hkeys
            { r.withInput rest with method := some (storedMethod parts.method) }
          simp only [Option.map_some, hr']

/-- What is read behind the request line is neither the target nor the path. -/
lemma keeps_readRest_path (heap : Heap) :
    Keeps (fun r : Request => (r.path, r.pathAndQuery)) (redhttpRequestReadRest heap) := by
  have hcontent : Keeps (fun r : Request => (r.path, r.pathAndQuery))
      (redhttpRequestReadContent heap) := keeps_readContent (fun _ _ _ _ _ _ => rfl) heap
  refine keeps_bind keeps_get fun _ => keeps_ite ?_ (keeps_pure 0)
  exact keeps_bind (keeps_readHeaders (fun _ _ _ => rfl) heap) fun _ =>
    keeps_bind keeps_get fun _ => keeps_ite hcontent (keeps_pure 0)

/-- The path of a request that has been read is that of its target. -/
theorem redhttpRequestRead_path (heap : Heap) : Triple Request.PathOfTarget
    (redhttpRequestRead heap) (fun _ => Request.PathOfTarget) fun _ => True := by
  refine triple_bind (readStatusLine_path heap) fun n =>
    triple_ite (triple_pure fun _ hr => hr) fun r hr => ?_
  have hkeeps := keeps_readRest_path heap r
  cases hrun : redhttpRequestReadRest heap r with
  | error e r' => trivial
  | ok n r' =>
    rw [hrun, stateOf_ok, Prod.mk.injEq] at hkeeps
    show r'.path = r'.pathAndQuery.map pathOf
    rw [hkeeps.1, hkeeps.2]
    exact hr

/-! ### The request as a whole -/

section Read

variable {w : RequestText} {heap : Heap} {r : Request}

/-- The request behind its request line. -/
abbrev afterLine (w : RequestText) (r : Request) : Request :=
  r.withStatusLine ⟨w.method, w.target, w.version⟩
    (w.headers.flatMap HeaderLine.bytes ++ (eol w.lastCrlf ++ w.further))

/-- A fresh request on the bytes of `w`. -/
structure FreshOn (w : RequestText) (r : Request) : Prop where
  input : r.socket.input = w.bytes
  headers : r.headers = []
  arguments : r.arguments = []
  method : r.method = none
  queryString : r.queryString = none

lemma storedMethod_method : storedMethod w.method = w.upperMethod :=
  CString.ext (CString.bytes_ofBytes_of_not_mem w.upperMethod.nul_free)

lemma read_of_line (hr : FreshOn w r)
    (h : Readable heap (bufferedText w.line w.crlf).length) :
    redhttpRequestRead heap r = redhttpRequestReadRest heap (afterLine w r) := by
  have hline := RequestText.requestLine_bytes (w := w) h
  rw [← hr.input] at hline
  exact redhttpRequestRead_of_statusLine (readStatusLine_of_keys hline w.target_keys)

lemma hasHeaders_afterLine : (afterLine w r).hasHeaders = true := by
  simp [Request.hasHeaders, Request.withStatusLine, w.version_new]

/-- The lines of the header block of `w` all have keys. -/
lemma lineKeyNonEmpty_of_mem {hs : List HeaderLine} :
    ∀ line ∈ hs.map HeaderLine.string, LineKeyNonEmpty line := by
  simp [HeaderLine.lineKeyNonEmpty]

/-- The request behind its headers. -/
abbrev afterHeaders (w : RequestText) (r : Request) : Request :=
  ((afterLine w r).withInput w.further).withHeaders (w.headers.map HeaderLine.header)

lemma readHeaders_of_readable (h : w.LinesReadable heap) :
    readHeadersFrom heap (afterLine w r) = .ok () (afterHeaders w r) := by
  have hblock : headerBlock heap
      (w.headers.flatMap HeaderLine.bytes ++ (eol w.lastCrlf ++ w.further)) = _ :=
    headerBlock_of_readable h.1.1 w.lastCrlf h.2
  have hres := readHeadersFrom_of_keys heap (afterLine w r) (by
    change ∀ line ∈ (headerBlock heap (w.headers.flatMap HeaderLine.bytes ++
      (eol w.lastCrlf ++ w.further))).lines, _
    rw [hblock]
    exact lineKeyNonEmpty_of_mem)
  change readHeadersResult _ (headerBlock heap (w.headers.flatMap HeaderLine.bytes ++
    (eol w.lastCrlf ++ w.further))) _ at hres
  rw [hblock, readHeadersResult, filterMap_headerOfLine] at hres
  exact hres

lemma head_afterHeaders (hr : FreshOn w r) : (afterHeaders w r).head = w.head := by
  simp only [Request.head, Request.withHeaders, Request.withInput, Request.withStatusLine,
    Request.withTarget, RequestText.head, hr.headers, hr.queryString, List.nil_append,
    Option.or_none, storedMethod_method]

lemma isPost_afterHeaders :
    (afterHeaders w r).isPost = (bytesOf "POST").isPrefixOf (w.method.bytes.map toupper) := by
  change Option.any _ (some (storedMethod w.method)) = _
  rw [storedMethod_method]
  rfl

lemma readContent_of_other (hlength : (r.getHeader (CString.lit "Content-Length")).isSome = true)
    {contentType : CString} (htype : r.getHeader (CString.lit "Content-Type") = some contentType)
    (hform : (bytesOf "application/x-www-form-urlencoded").isPrefixOf contentType.bytes = false) :
    redhttpRequestReadContent heap r = .ok 0 r := by
  obtain ⟨contentLength, hlength⟩ := Option.isSome_iff_exists.mp hlength
  simp only [redhttpRequestReadContent, bind_apply, get_apply, hlength, htype, hform,
    Bool.false_eq_true, if_false, pure_apply]

/-- What is done once the headers have been read. -/
lemma readRest_of_readable (h : w.LinesReadable heap) :
    redhttpRequestReadRest heap (afterLine w r) =
      if (bytesOf "POST").isPrefixOf (w.method.bytes.map toupper) then
        redhttpRequestReadContent heap (afterHeaders w r)
      else .ok 0 (afterHeaders w r) := by
  have hread : readHeaders heap (afterLine w r) = .ok () (afterHeaders w r) :=
    readHeaders_of_readable h
  rw [redhttpRequestReadRest, bind_of_ok (get_apply _), hasHeaders_afterLine, if_pos rfl,
    bind_of_ok hread, bind_of_ok (get_apply _), isPost_afterHeaders]
  split <;> rfl

/-- A request whose lines get through the buffer is read back. -/
theorem readsBack_of_readable (hr : FreshOn w r) (h : w.LinesReadable heap) :
    w.ReadsBack heap r := by
  rw [RequestText.ReadsBack, read_of_line hr h.1, readRest_of_readable h]
  refine ⟨?_, fun hleaves => ?_⟩
  · split
    · rw [keeps_head_readContent heap, head_afterHeaders hr]
    · exact head_afterHeaders hr
  · have hargs : (afterHeaders w r).arguments =
        (argumentSegments (queryBytes w.target)).map segmentHeader := by
      change r.arguments ++ _ = _
      rw [hr.arguments, List.nil_append]
    refine ⟨afterHeaders w r, ?_, hargs, rfl⟩
    have hheaders : (afterHeaders w r).headers = w.head.headers :=
      congrArg RequestHead.headers (head_afterHeaders hr)
    rcases hleaves with hpost | ⟨hlength, contentType, htype, hform⟩
    · rw [if_neg fun hp => hpost (w.method_post hp)]
    · rw [← hheaders] at hlength htype
      rw [readContent_of_other hlength htype hform, ite_self]

/-- A request with a line that does not get through the buffer is not read back. -/
theorem not_readsBack_of_not_readable (hr : FreshOn w r) (h : ¬ w.LinesReadable heap) :
    ¬ w.ReadsBack heap r := by
  rintro ⟨hhead, -⟩
  by_cases hline : Readable heap (bufferedText w.line w.crlf).length
  · -- some header line is lost, and the headers that are left are too few
    have hheaders : ¬ ∀ h ∈ w.headers, Readable heap (bufferedText h.text h.crlf).length :=
      fun hh => h ⟨hline, hh⟩
    obtain ⟨pre, h₀, post, hsplit, hlines⟩ :=
      headerBlock_of_not_readable (eol w.lastCrlf ++ w.further) hheaders
    have hlines' : (headerBlock heap (afterLine w r).socket.input).lines =
        pre.map HeaderLine.string := hlines
    have hleft : (stateOf (redhttpRequestReadRest heap (afterLine w r))).headers = _ :=
      headers_readRest hasHeaders_afterLine (by rw [hlines']; exact lineKeyNonEmpty_of_mem)
    rw [hlines', filterMap_headerOfLine, ← read_of_line hr hline] at hleft
    have hall := congrArg RequestHead.headers hhead
    change (stateOf (redhttpRequestRead heap r)).headers = _ at hall
    have hlen := congrArg List.length (hleft.symm.trans hall)
    have hnone : (afterLine w r).headers = [] := hr.headers
    simp only [hnone, List.nil_append, List.length_map, RequestText.head, hsplit,
      List.length_append, List.length_cons] at hlen
    omega
  · -- the request line is lost, and nothing has been set
    have hmethod : (stateOf (redhttpRequestRead heap r)).method = none := by
      rcases readLineFrom_of_not_readable w.lineText w.crlf (w.headers.flatMap HeaderLine.bytes ++
        (eol w.lastCrlf ++ w.further)) hline with he | ⟨rest, hn⟩
      · have hread : redhttpRequestReadLine heap r = .error .signedOverflow r := by
          rw [redhttpRequestReadLine, hr.input, RequestText.bytes, he]
        rw [redhttpRequestRead, redhttpRequestReadStatusLine]
        simp only [bind_apply, hread, stateOf_error, hr.method]
      · have hread : redhttpRequestReadLine heap r = .ok none (r.withInput rest) := by
          rw [redhttpRequestReadLine, hr.input, RequestText.bytes, hn]
        rw [redhttpRequestRead, redhttpRequestReadStatusLine]
        simp only [bind_apply, hread, pure_apply, badRequest]
        exact hr.method
    have := congrArg RequestHead.method hhead
    rw [Request.head, hmethod] at this
    cases this

end Read

/-- Reading a request undoes writing it exactly when each of its lines gets through the line
buffer. -/
theorem redhttpRequestRead_readsBack_iff (heap : Heap) (w : RequestText)
    (serverSignature : Option CString) (serverAddr serverPort : CString) :
    w.ReadsBack heap (redhttpRequestNew serverSignature serverAddr serverPort w.bytes) ↔
      w.LinesReadable heap := by
  have hfresh : FreshOn w (redhttpRequestNew serverSignature serverAddr serverPort w.bytes) :=
    ⟨rfl, rfl, rfl, rfl, rfl⟩
  constructor
  · intro h
    by_contra hnot
    exact not_readsBack_of_not_readable hfresh hnot h
  · exact readsBack_of_readable hfresh

/-- A GET whose only header has a value of `n + 1` bytes. -/
def longHeaderRequest (n : ℕ) : RequestText where
  method := CString.lit "GET"
  target := CString.lit "/"
  version := CString.lit "1.1"
  crlf := true
  headers := [{
    key := CString.lit "Cookie"
    value := ⟨ch 'a' :: List.replicate n (ch 'a'), by simp [ch]⟩
    crlf := true
    key_ne := by decide
    key_text := forall_mem_of_all (by decide)
    value_start := ⟨ch 'a', List.replicate n (ch 'a'), rfl, by decide⟩
    value_text := by
      intro c hc
      rcases List.mem_cons.mp hc with rfl | hc
      · decide
      · rw [List.eq_of_mem_replicate hc]
        decide }]
  lastCrlf := true
  further := []
  method_ne := by decide
  method_alpha := forall_mem_of_all (by decide)
  method_post := by decide
  target_start := ⟨ch '/', [], by decide, by decide⟩
  target_end := ⟨[], ch '/', by decide, by decide⟩
  target_text := forall_mem_of_all (by decide)
  target_keys := by decide
  version_word := forall_mem_of_all (by decide)
  version_new := by decide

lemma longHeaderRequest_not_readable {heap : Heap} (h : heap.Ample) {n : ℕ} (hn : 2 ^ 30 ≤ n) :
    ¬ (longHeaderRequest n).LinesReadable heap := by
  rintro ⟨-, hlines⟩
  have hlt := (readable_iff_of_ample h).mp (hlines _ (List.mem_singleton_self _))
  simp only [bufferedText, HeaderLine.text, List.length_append, List.length_cons,
    List.length_replicate] at hlt
  omega

/-- With memory for any buffer there is, a header line of more than 2^30 bytes is lost. -/
theorem longHeaderRequest_not_readsBack :
    ¬ (longHeaderRequest (2 ^ 30)).ReadsBack ⟨fun _ => true, fun _ => 0⟩
      (redhttpRequestNew none default default (longHeaderRequest (2 ^ 30)).bytes) :=
  not_readsBack_of_not_readable ⟨rfl, rfl, rfl, rfl, rfl⟩
    (longHeaderRequest_not_readable (fun _ => rfl) le_rfl)

end RedStore.RedHttp
