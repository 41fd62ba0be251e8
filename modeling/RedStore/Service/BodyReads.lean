/-
How often the body of a request is read.

`redhttp_request_read` takes a urlencoded body of a POST off the socket, and
`parse_data_from_request_body` the body of an upload to the graph store.  Neither leaves a note
that it has done so.  A urlencoded POST to the graph store is read by both, and the second read
waits for bytes that were never promised; apart from that a body is read at most once.
-/
import RedStore.RedHttp.ReadBack
import RedStore.Service.BodyReaders
import RedStore.Service.HandlerTriples
import RedStore.Service.Uploads

namespace RedStore.Service
open CLib RedHttp

variable {T R σ α : Type} {w : World T R σ}

/-! ### What is asked of the socket -/

/-- The number of bytes that a call asks the socket for. -/
def askedBytes : Call → Option ℕ
  | .alloc _ => none
  | .fread _ asked => some asked

/-- The numbers of bytes that the reads of the body have asked for. -/
def freads (r : Request) : List ℕ := r.calls.filterMap askedBytes

/-- The number that a Content-Length header declares; a negative number declares nothing. -/
def declaredLength (s : CString) : ℕ :=
  match s.bytes.dropWhile isspace with
  | [] => 0
  | c :: digits =>
    if c = ch '-' then 0
    else digitsValue ((if c = ch '+' then digits else c :: digits).takeWhile isdigit)

/-- The length that a request declares of its body. -/
def declaredBody (r : Request) : ℕ :=
  (r.getHeader (CString.lit "Content-Length")).elim 0 declaredLength

/-- The length that both readers ask for. -/
def askedBody (r : Request) : ℕ :=
  (r.getHeader (CString.lit "Content-Length")).elim 0 fun s => sizeOfInt (atoi s)

/-- A body is read at most once, and no further than it was declared. -/
def BodyReadOnce (declared : ℕ) (r : Request) : Prop :=
  (freads r).sum ≤ declared ∧ (freads r).length ≤ 1

/-! ### Everything but the readers -/

/-- The part of a request that decides on its route and on its body, and what has been read. -/
structure ReadSide where
  reads : List ℕ
  headers : List Header
  method : Option CString
  path : Option CString

def readSide (r : Request) : ReadSide := ⟨freads r, r.headers, r.method, r.path⟩

lemma maintains_onRequest {γ : Type} {proj : Request → γ} {x : RequestM α} (h : Keeps proj x)
    (a : γ) : Maintains (fun c : Conn (App σ) => proj c.request = a) (onRequest x) := by
  have hmaintains : Maintains (fun r => proj r = a) x :=
    h.maintains (p := fun b => b = a) fun _ => Iff.rfl
  exact triple_request hmaintains

lemma keeps_send (now : Option Tm) (response : Response) :
    Keeps readSide (redhttpResponseSend now response) := by
  intro r
  rw [redhttpResponseSend_eq]
  split <;> rfl

/-- The steps of the handlers other than the reading of a body read no body. -/
lemma readRules (w : World T R σ) (side : ReadSide) :
    StepRules w (fun c => readSide c.request = side) (fun _ => True)
      (fun _ c => readSide c.request = side) (fun _ c => readSide c.request = side) where
  call f c hc := by
    rw [call_apply]
    exact hc
  log m c hc := hc
  inspect c hc := hc
  reset c hc := hc
  counters f _ := maintains_modify fun c hc => hc
  url := by
    refine (maintains_onRequest (fun r => ?_) side).mono (fun _ hc => hc) fun _ _ hc => ⟨hc, trivial⟩
    rw [redhttpRequestGetUrl_apply]
    rfl
  host := by
    refine maintains_onRequest (fun r => ?_) side
    rw [redhttpRequestGetHost_apply]
    rfl
  glob glob := maintains_onRequest (keeps_setPathGlob (fun _ _ => rfl) glob) side
  built hc _ := hc
  asterisk hc _ := hc
  fallback hc _ := hc
  send _ := maintains_onRequest (keeps_send w.now _) side
  sentCall _ f c hc := by
    rw [call_apply]
    exact hc
  sentLog _ m c hc := hc
  sentWrite _ _ := maintains_onRequest (fun _ => rfl) side
  sent hc := hc

/-! ### Uploads -/

lemma stateOf_map (x : ServiceM σ α) {β : Type} (f : α → β) (c : Conn (App σ)) :
    stateOf ((f <$> x) c) = stateOf (x c) := by
  change stateOf ((x >>= fun a => pure (f a)) c) = _
  rw [bind_apply]
  cases x c <;> rfl

/-- A program that maintains what has been read has read nothing more. -/
lemma readSide_of_triple {x : ServiceM σ α} {c : Conn (App σ)}
    (h : ∀ side, Triple (fun c : Conn (App σ) => readSide c.request = side) x
      (fun _ c => readSide c.request = side) (fun c => readSide c.request = side)) :
    readSide (stateOf (x c)).request = readSide c.request := by
  have hrun := h _ c rfl
  cases hx : x c with
  | ok a c' =>
    rw [hx] at hrun
    exact hrun
  | error e c' =>
    rw [hx] at hrun
    exact hrun

/-- Whether the reader of an upload gets as far as asking for the body. -/
def DataReadable (heap : Heap) (r : Request) : Prop :=
  askedBody r ≠ 0 ∧ heap.malloc (askedBody r) = true

instance (heap : Heap) (r : Request) : Decidable (DataReadable heap r) :=
  inferInstanceAs (Decidable (_ ∧ _))

/-- A request whose body has been read for an upload. -/
def uploadSide (heap : Heap) (r : Request) : ReadSide :=
  { readSide r with
    reads := freads r ++ if DataReadable heap r then [askedBody r] else [] }

lemma uploadSide_congr {heap : Heap} {r r' : Request} (h : readSide r = readSide r') :
    uploadSide heap r = uploadSide heap r' := by
  have hreads : freads r = freads r' := congrArg ReadSide.reads h
  have hasked : askedBody r = askedBody r' := by
    rw [askedBody, askedBody, Request.getHeader, Request.getHeader,
      show r.headers = r'.headers from congrArg ReadSide.headers h]
  have hreadable : DataReadable heap r ↔ DataReadable heap r' := by
    rw [DataReadable, DataReadable, hasked]
  simp only [uploadSide, h, hreads, hasked, hreadable]

/-- The reader of an upload asks for the body once, if it asks. -/
lemma readDataBody_asks (heap : Heap) (r : Request) : ∃ result r',
    readDataBody heap (r.getHeader (CString.lit "Content-Length")) r = .ok result r' ∧
      readSide r' = uploadSide heap r := by
  rw [uploadSide]
  cases hlength : r.getHeader (CString.lit "Content-Length") with
  | none =>
    have hasked : askedBody r = 0 := by rw [askedBody, hlength]; rfl
    refine ⟨_, r, rfl, ?_⟩
    rw [if_neg (fun h => h.1 hasked), List.append_nil]
    rfl
  | some contentLength =>
    have hasked : askedBody r = sizeOfInt (atoi contentLength) := by rw [askedBody, hlength]; rfl
    rw [readDataBody_eq hasked.symm]
    by_cases hzero : askedBody r = 0
    · refine ⟨_, _, if_pos hzero, ?_⟩
      rw [if_neg (fun h => h.1 hzero), List.append_nil]
      rfl
    · rw [if_neg hzero]
      by_cases hmalloc : heap.malloc (askedBody r) = true
      · refine ⟨_, _, if_pos hmalloc, ?_⟩
        rw [if_pos ⟨hzero, hmalloc⟩, readSide, freads, Request.withInput, dataAsked,
          List.filterMap_append]
        rfl
      · refine ⟨_, _, if_neg hmalloc, ?_⟩
        rw [if_neg (fun h => hmalloc h.2), readSide, freads, List.filterMap_append]
        rfl

/-- An upload reads its body once, if it reads it. -/
lemma parseDataFromRequestBody_asks (graphNode : Option Node) {streamProc : StreamProcessor T σ}
    (hproc : ∀ side stream, Triple (fun c : Conn (App σ) => readSide c.request = side)
      (streamProc stream graphNode) (fun _ c => readSide c.request = side)
        (fun c => readSide c.request = side)) (c : Conn (App σ)) :
    readSide (stateOf (parseDataFromRequestBody w graphNode streamProc c)).request =
      uploadSide w.heap c.request := by
  obtain ⟨result, r', hread, hside⟩ := readDataBody_asks w.heap c.request
  have hreadConn : onRequest (readDataBody w.heap
      (c.request.getHeader (CString.lit "Content-Length"))) c =
        .ok result { c with request := r' } := by
    simp only [onRequest, hread]
  rw [parseDataFromRequestBody, bind_of_ok (get_apply c), bind_of_ok hreadConn, ← hside]
  cases result with
  | error failure => exact readSide_of_triple fun side => message_triple (readRules w side) _ _
  | ok data =>
    dsimp only
    cases w.parserGuessName (c.request.getHeader (CString.lit "Content-Type")) data with
    | none => exact readSide_of_triple fun side => message_triple (readRules w side) _ _
    | some parserName =>
      exact readSide_of_triple fun side =>
        (readRules w side).parseDataFromBuffer data parserName graphNode (hproc side)

/-! ### Which requests are uploads -/

/-- Whether `post_to_new_graph` finds a graph that is not there, in so many attempts. -/
def findsNewGraph (w : World T R σ) : ℕ → Conn (App σ) → Bool
  | 0, _ => false
  | attempts + 1, c =>
    match nextGraph w c with
    | none => false
    | some graphNode =>
      let answer := w.containsContext graphNode c.app.storage
      !answer.value || findsNewGraph w attempts (called (genidConn w (urlConn c)) answer)

lemma findNewGraph_finds (attempts : ℕ) (c : Conn (App σ)) : ∃ found c',
    findNewGraph w attempts c = .ok found c' ∧
      ((∃ node, found = .ok node) ↔ findsNewGraph w attempts c = true) := by
  induction attempts generalizing c with
  | zero => exact ⟨_, _, rfl, by simp [findsNewGraph]⟩
  | succ attempts ih =>
    rw [findNewGraph_succ, findsNewGraph]
    cases nextGraph w c with
    | none => exact ⟨_, _, rfl, by simp⟩
    | some graphNode =>
      dsimp only
      cases (w.containsContext graphNode c.app.storage).value with
      | true =>
        rw [if_pos rfl, Bool.not_true, Bool.false_or]
        exact ih _
      | false => exact ⟨_, _, if_neg Bool.false_ne_true, by simp⟩

/-- The requests with which POST comes to read a body. -/
def PostTakesBody (w : World T R σ) (c : Conn (App σ)) : Prop :=
  match requestTarget w c.request with
  | .default | .graph _ => True
  | .both | .unnamed => False
  | .missing => findsNewGraph w 10 c = true

/-- The requests with which the graph store comes to read a body. -/
def UploadTaken (w : World T R σ) (c : Conn (App σ)) : Prop :=
  ∃ suffix, c.request.path = some (CString.lit "/data" ++ suffix) ∧
    (c.request.method = some (CString.lit "PUT") ∧
        (∃ node, requestTarget w (dataConn c suffix).request = .graph node) ∨
      c.request.method = some (CString.lit "POST") ∧ PostTakesBody w (dataConn c suffix))

/-! ### Dispatch -/

section Dispatch

variable {c : Conn (App σ)}

/-- Loading a stream reads no body. -/
lemma loads_no_body (graphNode : Option Node) (side : ReadSide) (stream : Stream T) :
    Triple (fun c : Conn (App σ) => readSide c.request = side)
      (loadStreamIntoGraph w stream graphNode) (fun _ c => readSide c.request = side)
        (fun c => readSide c.request = side) :=
  (readRules w side).loadStreamIntoGraph stream graphNode

lemma page_reads (code : Status) (message : List UInt8) :
    readSide (stateOf ((some <$> redstorePageNewWithMessage w code message) c)).request =
      readSide c.request := by
  rw [stateOf_map]
  exact readSide_of_triple fun side => message_triple (readRules w side) code message

lemma handleDataPut_reads : readSide (stateOf (handleDataPut w c)).request =
    match requestTarget w c.request with
    | .graph _ => uploadSide w.heap c.request
    | _ => readSide c.request := by
  rw [handleDataPut, withTarget_apply]
  cases requestTarget w c.request with
  | both => exact page_reads _ _
  | missing => exact page_reads _ _
  | default => exact page_reads _ _
  | unnamed => exact page_reads (c := urlConn c) _ _
  | graph node =>
    dsimp only
    rw [stateOf_map]
    exact parseDataFromRequestBody_asks (some node) (fun side stream =>
      (readRules w side).clearAndLoadStreamIntoGraph stream (some node)) (urlConn c)

lemma postToNewGraph_reads : readSide (stateOf (postToNewGraph w c)).request =
    if findsNewGraph w 10 c then uploadSide w.heap c.request else readSide c.request := by
  obtain ⟨found, c₁, hfound, hfinds⟩ := findNewGraph_finds (w := w) 10 c
  have hside : readSide c₁.request = readSide c.request :=
    ((readRules w _).findNewGraph 10).of_ok rfl hfound |>.1
  have hnode : ∀ node, found = .ok node → ∃ url n,
      graphNodeFor w url (some (CString.lit "/data/" ++ genidText n)) = some node := by
    intro node hnode
    obtain ⟨url, n, -, h⟩ := (((readRules w _).findNewGraph 10).of_ok rfl hfound).2 node hnode
    exact ⟨url, n, h⟩
  rw [postToNewGraph, bind_of_ok hfound]
  cases found with
  | error message =>
    have hno : findsNewGraph w 10 c = false := by
      rw [Bool.eq_false_iff, ne_eq, ← hfinds]
      rintro ⟨_, ⟨⟩⟩
    rw [hno, if_neg Bool.false_ne_true, ← hside]
    exact readSide_of_triple fun side => message_triple (readRules w side) _ _
  | ok node =>
    obtain ⟨url, n, hn⟩ := hnode node rfl
    rw [if_pos (hfinds.mp ⟨node, rfl⟩), ← uploadSide_congr hside]
    exact parseDataFromRequestBody_asks (some node) (fun side stream =>
      (readRules w side).loadStreamIntoNewGraph trivial hn stream) c₁

lemma handleDataPost_reads :
    (PostTakesBody w c → readSide (stateOf (handleDataPost w c)).request =
      uploadSide w.heap c.request) ∧
    (¬ PostTakesBody w c → readSide (stateOf (handleDataPost w c)).request =
      readSide c.request) := by
  rw [handleDataPost_apply, PostTakesBody]
  cases requestTarget w c.request with
  | both => exact ⟨False.elim, fun _ => page_reads _ _⟩
  | unnamed => exact ⟨False.elim, fun _ => page_reads (c := urlConn c) _ _⟩
  | default =>
    refine ⟨fun _ => ?_, fun h => absurd trivial h⟩
    dsimp only
    rw [stateOf_map]
    exact parseDataFromRequestBody_asks none (loads_no_body none) c
  | graph node =>
    refine ⟨fun _ => ?_, fun h => absurd trivial h⟩
    dsimp only
    rw [stateOf_map]
    exact parseDataFromRequestBody_asks (some node) (loads_no_body (some node)) (urlConn c)
  | missing =>
    dsimp only
    rw [stateOf_map, postToNewGraph_reads]
    exact ⟨fun h => if_pos h, fun h => if_neg h⟩

/-- An answer of the table for a request that is no upload reads no body. -/
lemma dispatchRequest_no_upload {method path : CString} (hmethod : c.request.method = some method)
    (hpath : c.request.path = some path)
    (hother : (∀ suffix, path ≠ CString.lit "/data" ++ suffix) ∨
      method ≠ CString.lit "PUT" ∧ method ≠ CString.lit "POST") :
    readSide (stateOf (dispatchRequest w c)).request = readSide c.request := by
  have hskip : ∀ (m : DataMethod) (func : ServiceM σ (Option Response)),
      m = .put ∨ m = .post → ∀ c' : Conn (App σ), readSide c'.request = readSide c.request →
        matchRoute ⟨some m.name, some (CString.lit "/data*"), func⟩ c'.request =
          .ok false c'.request := by
    intro m func hm c' hside
    have hmethod' : c'.request.method = some method :=
      (congrArg ReadSide.method hside).trans hmethod
    have hpath' : c'.request.path = some path := (congrArg ReadSide.path hside).trans hpath
    rcases hother with hother | ⟨hput, hpost⟩
    · exact matchRoute_of_path rfl rfl hmethod' hpath' (matchPath_not_data hother)
    · refine matchRoute_of_method rfl hmethod' ?_
      rcases hm with rfl | rfl
      · exact hput.symm
      · exact hpost.symm
  have hredirect : Triple (fun c' : Conn (App σ) => readSide c'.request = readSide c.request)
      (removeTrailingSlash w) (Answers (fun c' => readSide c'.request = readSide c.request)
        fun _ c' => readSide c'.request = readSide c.request)
      (fun c' => readSide c'.request = readSide c.request) :=
    StepRules.removeTrailingSlash fun hc _ _ => hc
  have hrun := (readRules w (readSide c.request)).dispatchRequest
    (.inl (hskip .put _ (.inl rfl))) (.inl (hskip .post _ (.inr rfl))) (.inr hredirect) c rfl
  cases hdispatch : dispatchRequest w c with
  | ok answer c' =>
    rw [hdispatch] at hrun
    cases answer with
    | none => exact hrun
    | some response => exact hrun
  | error e c' =>
    rw [hdispatch] at hrun
    exact hrun

/-- The table reads the body of exactly the uploads that are taken, and reads it once. -/
lemma dispatchRequest_reads (hglob : c.request.pathGlob = .null) :
    (UploadTaken w c → readSide (stateOf (dispatchRequest w c)).request =
      uploadSide w.heap c.request) ∧
    (¬ UploadTaken w c → readSide (stateOf (dispatchRequest w c)).request =
      readSide c.request) := by
  have hput : ∀ suffix, c.request.method = some (CString.lit "PUT") →
      c.request.path = some (CString.lit "/data" ++ suffix) →
        dispatchRequest w c = handleDataPut w (dataConn c suffix) :=
    fun suffix hmethod hpath => dispatchRequest_data (m := .put) hmethod hpath hglob
  have hpost : ∀ suffix, c.request.method = some (CString.lit "POST") →
      c.request.path = some (CString.lit "/data" ++ suffix) →
        dispatchRequest w c = handleDataPost w (dataConn c suffix) :=
    fun suffix hmethod hpath => dispatchRequest_data (m := .post) hmethod hpath hglob
  constructor
  · rintro ⟨suffix, hpath, ⟨hmethod, node, htarget⟩ | ⟨hmethod, htakes⟩⟩
    · rw [hput suffix hmethod hpath]
      have hside := handleDataPut_reads (w := w) (c := dataConn c suffix)
      rw [htarget] at hside
      exact hside
    · rw [hpost suffix hmethod hpath]
      exact handleDataPost_reads.1 htakes
  · intro hnot
    cases hpath : c.request.path with
    | none => rw [dispatchRequest, redhttpServerDispatchRequest, bind_of_ok (get_apply c), hpath]; rfl
    | some path =>
      cases hmethod : c.request.method with
      | none =>
        simp only [dispatchRequest, redhttpServerDispatchRequest, bind_apply, get_apply, hpath,
          hmethod, throw_apply, stateOf_error]
      | some method =>
        by_cases hdata : ∃ suffix, path = CString.lit "/data" ++ suffix
        · obtain ⟨suffix, rfl⟩ := hdata
          by_cases hm : method = CString.lit "PUT"
          · subst hm
            rw [hput suffix hmethod hpath]
            have hside := handleDataPut_reads (w := w) (c := dataConn c suffix)
            cases htarget : requestTarget w (dataConn c suffix).request with
            | graph node => exact absurd ⟨suffix, hpath, .inl ⟨hmethod, node, htarget⟩⟩ hnot
            | _ =>
              rw [htarget] at hside
              exact hside
          · by_cases hm' : method = CString.lit "POST"
            · subst hm'
              rw [hpost suffix hmethod hpath]
              exact handleDataPost_reads.2 fun htakes =>
                hnot ⟨suffix, hpath, .inr ⟨hmethod, htakes⟩⟩
            · exact dispatchRequest_no_upload hmethod hpath (.inr ⟨hm, hm'⟩)
        · exact dispatchRequest_no_upload hmethod hpath (.inl (not_exists.mp hdata))

end Dispatch

/-! ### Reading a request -/

section Read

variable {heap : Heap} {r : Request}

/-- `redhttp_request_read` up to the empty line behind the headers; a request that ends before
that has a status already. -/
def readHead (heap : Heap) : RequestM (Option ℕ) := do
  let result ← redhttpRequestReadStatusLine heap
  if result ≠ 0 then pure (some result)
  else if (← get).hasHeaders then
    readHeaders heap
    pure none
  else pure (some 0)

/-- `redhttp_request_read` from there on. -/
def readBody (heap : Heap) : RequestM ℕ := do
  if (← get).isPost then redhttpRequestReadContent heap else pure 0

lemma redhttpRequestRead_eq_head (heap : Heap) :
    redhttpRequestRead heap = (readHead heap >>= fun
      | some status => pure status
      | none => readBody heap) := by
  funext r
  simp only [redhttpRequestRead, readHead, redhttpRequestReadRest, bind_apply]
  cases redhttpRequestReadStatusLine heap r with
  | error e r' => rfl
  | ok result r' =>
    by_cases hresult : result = 0
    · subst hresult
      simp only [ne_eq, not_true_eq_false, if_false, bind_apply, get_apply]
      cases r'.hasHeaders with
      | false => rfl
      | true =>
        simp only [if_true, bind_apply]
        cases readHeaders heap r' with
        | error e r'' => rfl
        | ok u r'' => rfl
    · simp only [ne_eq, hresult, not_false_eq_true, if_true]
      rfl

/-- Nothing of a body is read with the head, and there are no headers without an empty line. -/
lemma keeps_calls_readHead (heap : Heap) : Keeps Request.calls (readHead heap) := by
  refine keeps_bind (keeps_readStatusLine (fun _ _ _ _ _ _ _ _ => rfl) heap) fun result =>
    keeps_ite (keeps_pure _) (keeps_bind keeps_get fun _ => keeps_ite ?_ (keeps_pure _))
  exact keeps_bind (keeps_readHeaders (fun _ _ _ => rfl) heap) fun _ => keeps_pure _

/-- A request whose head ends early has no headers. -/
lemma readHead_headers (heap : Heap) : Triple (fun r : Request => r.headers = []) (readHead heap)
    (fun status r => status ≠ none → r.headers = []) fun _ => True := by
  have hline : Keeps Request.headers (redhttpRequestReadStatusLine heap) :=
    keeps_readStatusLine (fun _ _ _ _ _ _ _ _ => rfl) heap
  refine triple_bind (Q := fun _ r => r.headers = []) (fun r hr => ?_) fun result => ?_
  · have hkept := hline r
    cases hrun : redhttpRequestReadStatusLine heap r with
    | error e r' => trivial
    | ok result r' =>
      rw [hrun] at hkept
      exact hkept.trans hr
  · refine triple_ite (triple_pure fun _ hr _ => hr) (triple_get_bind fun r hr => ?_)
    refine triple_ite (fun r _ => ?_) (triple_pure fun r' hr' _ => hr' ▸ hr)
    rw [bind_apply]
    cases readHeaders heap r with
    | error e r' => trivial
    | ok u r' => exact fun h => absurd rfl h

/-- The requests whose body is read as a form. -/
def FormTaken (heap : Heap) (r : Request) : Prop :=
  r.isPost = true ∧
    (∃ type, r.getHeader (CString.lit "Content-Type") = some type ∧
      (bytesOf "application/x-www-form-urlencoded").isPrefixOf type.bytes = true) ∧
    (∃ length, r.getHeader (CString.lit "Content-Length") = some length) ∧
    heap.malloc ((askedBody r + 1) % sizeRange) = true

/-- A form is read once, and the body of no other request. -/
lemma readBody_reads (heap : Heap) (hfresh : r.calls = []) :
    (FormTaken heap r → freads (stateOf (readBody heap r)) = [askedBody r]) ∧
      (¬ FormTaken heap r → freads (stateOf (readBody heap r)) = []) := by
  have hnone : freads r = [] := by rw [freads, hfresh]; rfl
  rw [readBody, bind_of_ok (get_apply r)]
  by_cases hpost : r.isPost = true
  · rw [if_pos hpost]
    by_cases hform : ∃ type, r.getHeader (CString.lit "Content-Type") = some type ∧
        (bytesOf "application/x-www-form-urlencoded").isPrefixOf type.bytes = true
    · obtain ⟨type, htype, hprefix⟩ := hform
      cases hlength : r.getHeader (CString.lit "Content-Length") with
      | none =>
        have hstate : stateOf (redhttpRequestReadContent heap r) = r := by
          rw [redhttpRequestReadContent, bind_of_ok (get_apply r), htype, hlength]
          rfl
        rw [hstate]
        refine ⟨?_, fun _ => hnone⟩
        rintro ⟨-, -, ⟨length, hsome⟩, -⟩
        rw [hlength] at hsome
        cases hsome
      | some length =>
        have hasked : sizeOfInt (atoi length) = askedBody r := by rw [askedBody, hlength]; rfl
        have hcalls : newCalls r (redhttpRequestReadContent heap r) = _ :=
          newCalls_readContent htype hprefix hlength hasked rfl
        rw [newCalls, hfresh, List.length_nil, List.drop_zero] at hcalls
        rw [freads, hcalls]
        refine ⟨fun h => ?_, fun h => ?_⟩
        · rw [if_pos h.2.2.2]
          rfl
        · rw [if_neg fun hmalloc => h ⟨hpost, ⟨type, htype, hprefix⟩, ⟨length, hlength⟩, hmalloc⟩]
          rfl
    · have hstate : stateOf (redhttpRequestReadContent heap r) = r := by
        rw [redhttpRequestReadContent, bind_of_ok (get_apply r)]
        cases htype : r.getHeader (CString.lit "Content-Type") with
        | none => rfl
        | some type =>
          have hother : ¬ (bytesOf "application/x-www-form-urlencoded").isPrefixOf type.bytes = true :=
            fun h => hform ⟨type, htype, h⟩
          cases r.getHeader (CString.lit "Content-Length") with
          | none => rfl
          | some length =>
            dsimp only
            rw [if_neg hother]
            rfl
      rw [hstate]
      exact ⟨fun h => absurd h.2.1 hform, fun _ => hnone⟩
  · rw [if_neg hpost]
    exact ⟨fun h => absurd h.1 hpost, fun _ => hnone⟩

/-- The headers do not change with the body, nor does what the connection started with. -/
lemma keeps_readBody (heap : Heap) :
    Keeps (fun r : Request => (r.headers, r.connectionSide)) (readBody heap) :=
  keeps_bind keeps_get fun _ =>
    keeps_ite (keeps_readContent (fun _ _ _ _ _ _ => rfl) heap) (keeps_pure 0)

end Read

/-! ### The whole of a request -/

section Whole

variable {signature : Option CString} {addr port : CString} {input : List UInt8} {app : App σ}
  {r : Request}

/-- What a request and its answer have read of the body in the end. -/
def bodyRequest (w : World T R σ) (signature : Option CString) (addr port : CString)
    (input : List UInt8) (app : App σ) : Request :=
  (stateOf (handleRequest w ⟨redhttpRequestNew signature addr port input, app⟩)).request

/-- A request that has been read comes to an upload: it was not refused, or there is no page to
refuse it with, and the graph store takes its body. -/
def UploadAnswers (w : World T R σ) (result : ℕ) (c : Conn (App σ)) : Prop :=
  (result = 0 ∨ redhttpResponseNewErrorPage w.heap .badRequest [] = none) ∧
    UploadTaken w c ∧ DataReadable w.heap c.request

/-- A request whose head has been read comes to an upload. -/
def UploadFollows (w : World T R σ) (r : Request) (app : App σ) : Prop :=
  ∃ result r', readBody w.heap r = .ok result r' ∧ UploadAnswers w result ⟨r', app⟩

/-- Answering a request reads the body of exactly the uploads. -/
lemma answerRequest_reads (result : ℕ) {c : Conn (App σ)} (hglob : c.request.pathGlob = .null) :
    (UploadAnswers w result c →
      freads (stateOf (answerRequest w.heap (redstoreHandlers w) result c)).request =
        freads c.request ++ [askedBody c.request]) ∧
    (¬ UploadAnswers w result c →
      freads (stateOf (answerRequest w.heap (redstoreHandlers w) result c)).request =
        freads c.request) := by
  have hdispatch := dispatchRequest_reads (w := w) hglob
  by_cases hanswers : result = 0 ∨ redhttpResponseNewErrorPage w.heap .badRequest [] = none
  · have hrun : answerRequest w.heap (redstoreHandlers w) result c = dispatchRequest w c := by
      rw [answerRequest]
      split
      · next hne => rw [hanswers.resolve_left hne]; rfl
      · rfl
    rw [hrun]
    by_cases htaken : UploadTaken w c
    · have hreads := congrArg ReadSide.reads (hdispatch.1 htaken)
      refine ⟨fun h => hreads.trans ?_, fun h => hreads.trans ?_⟩
      · rw [uploadSide, if_pos h.2.2]
      · rw [uploadSide, if_neg fun hreadable => h ⟨hanswers, htaken, hreadable⟩]
        exact List.append_nil _
    · exact ⟨fun h => absurd h.2.1 htaken,
        fun _ => congrArg ReadSide.reads (hdispatch.2 htaken)⟩
  · obtain ⟨hne, hpage⟩ := not_or.mp hanswers
    refine ⟨fun h => absurd h.1 hanswers, fun _ => ?_⟩
    rw [answerRequest, if_pos hne]
    cases hnew : redhttpResponseNewErrorPage w.heap .badRequest [] with
    | none => exact absurd hnew hpage
    | some page => rfl

lemma sendAnswer_reads (response : Option Response) (c : Conn (App σ)) :
    freads (stateOf (sendAnswer w.now response c)).request = freads c.request := by
  cases response with
  | none => rfl
  | some response =>
    exact congrArg ReadSide.reads (readSide_of_triple fun side =>
      maintains_onRequest (keeps_send w.now response) side)

/-- What is read for a body while a request is read and while it is answered. -/
lemma handleRequest_reads {c : Conn (App σ)} :
    freads (stateOf (handleRequest w c)).request =
      match redhttpRequestRead w.heap c.request with
      | .ok result r => freads
          (stateOf (answerRequest w.heap (redstoreHandlers w) result { c with request := r })).request
      | .error _ r => freads r := by
  rw [handleRequest, redhttpServerHandleRequest_eq, bind_apply]
  cases hread : redhttpRequestRead w.heap c.request with
  | error e r => simp only [onRequest, hread, stateOf_error]
  | ok result r =>
    simp only [onRequest, hread, bind_apply]
    cases answerRequest w.heap (redstoreHandlers w) result { c with request := r } with
    | error e c' => rfl
    | ok response c' => exact sendAnswer_reads response c'

lemma bodyRequest_reads (app : App σ)
    (hhead : readHead w.heap (redhttpRequestNew signature addr port input) =
      .ok none r) : ∃ form upload,
    freads (bodyRequest w signature addr port input app) = form ++ upload ∧
      (FormTaken w.heap r → form = [askedBody r]) ∧ (¬ FormTaken w.heap r → form = []) ∧
      (UploadFollows w r app → upload = [askedBody r]) ∧
      (¬ UploadFollows w r app → upload = []) := by
  have hread : redhttpRequestRead w.heap (redhttpRequestNew signature addr port input) =
      readBody w.heap r := by
    rw [redhttpRequestRead_eq_head, bind_of_ok hhead]
  have hfresh : r.calls = [] := by
    have hkeeps := keeps_calls_readHead w.heap (redhttpRequestNew signature addr port input)
    rw [hhead] at hkeeps
    exact hkeeps
  obtain ⟨hform, hnoForm⟩ := readBody_reads w.heap hfresh
  rw [bodyRequest, handleRequest_reads, hread]
  cases hbody : readBody w.heap r with
  | error e r' =>
    rw [hbody] at hform hnoForm
    refine ⟨freads r', [], (List.append_nil _).symm, hform, hnoForm, ?_, fun _ => rfl⟩
    rintro ⟨result, r'', hok, -⟩
    rw [hbody] at hok
    cases hok
  | ok result r' =>
    rw [hbody] at hform hnoForm
    have hglob : r'.pathGlob = .null := by
      have hkeeps := keeps_read w.heap (redhttpRequestNew signature addr port input)
      rw [hread, hbody] at hkeeps
      exact congrArg ConnectionSide.pathGlob hkeeps
    have hasked : askedBody r' = askedBody r := by
      have hkeeps := keeps_readBody w.heap r
      rw [hbody] at hkeeps
      rw [askedBody, askedBody, Request.getHeader, Request.getHeader,
        show r'.headers = r.headers from congrArg Prod.fst hkeeps]
    have hfollows : UploadFollows w r app ↔ UploadAnswers w result ⟨r', app⟩ := by
      constructor
      · rintro ⟨result', r'', hok, hanswers⟩
        obtain ⟨rfl, rfl⟩ : result = result' ∧ r' = r'' := by
          simpa only [EStateM.Result.ok.injEq] using hbody.symm.trans hok
        exact hanswers
      · exact fun hanswers => ⟨result, r', hbody, hanswers⟩
    obtain ⟨hanswer, hnoAnswer⟩ :=
      answerRequest_reads (w := w) result (c := ⟨r', app⟩) hglob
    by_cases hupload : UploadAnswers w result ⟨r', app⟩
    · refine ⟨freads r', [askedBody r], (hanswer hupload).trans ?_, hform, hnoForm, fun _ => rfl,
        fun hno => absurd (hfollows.mpr hupload) hno⟩
      rw [← hasked]
    · exact ⟨freads r', [], (hnoAnswer hupload).trans (List.append_nil _).symm, hform, hnoForm,
        fun h => absurd (hfollows.mp h) hupload, fun _ => rfl⟩

/-- Without an empty line behind the headers nothing is read of a body. -/
lemma bodyRequest_headless
    (hhead : ∀ r, readHead w.heap (redhttpRequestNew signature addr port input) ≠ .ok none r) :
    freads (bodyRequest w signature addr port input app) = [] := by
  have hcalls := keeps_calls_readHead w.heap (redhttpRequestNew signature addr port input)
  have hnone : ∀ {r : Request}, r.calls = [] → freads r = [] := fun h => by rw [freads, h]; rfl
  rw [bodyRequest, handleRequest_reads]
  dsimp only
  have hread := congrFun (redhttpRequestRead_eq_head w.heap)
    (redhttpRequestNew signature addr port input)
  rw [bind_apply] at hread
  cases hrun : readHead w.heap (redhttpRequestNew signature addr port input) with
  | error e r' =>
    rw [hrun] at hread hcalls
    rw [hread]
    exact hnone hcalls
  | ok status r' =>
    rw [hrun] at hread hcalls
    cases status with
    | none => exact absurd hrun (hhead r')
    | some status =>
      have hread' : redhttpRequestRead w.heap (redhttpRequestNew signature addr port input) =
        .ok status r' := hread
      have hheaders : r'.headers = [] :=
        (readHead_headers w.heap).of_ok rfl hrun (Option.some_ne_none status)
      have hglob : r'.pathGlob = .null := by
        have hkeeps := keeps_read w.heap (redhttpRequestNew signature addr port input)
        rw [hread'] at hkeeps
        exact congrArg ConnectionSide.pathGlob hkeeps
      have hunread : ¬ UploadAnswers w status ⟨r', app⟩ := by
        rintro ⟨-, -, hreadable⟩
        exact hreadable.1 (by rw [askedBody, Request.getHeader, hheaders]; rfl)
      rw [hread']
      exact ((answerRequest_reads status (c := ⟨r', app⟩) hglob).2 hunread).trans (hnone hcalls)

end Whole

/-- A body is read at most once and no further than declared exactly when it is not both that of
a form and that of an upload, and the length that is asked for, if any, is the one declared. -/
theorem bodyReadOnce_iff (w : World T R σ) (signature : Option CString) (addr port : CString)
    (input : List UInt8) (app : App σ) :
    (∀ r, readHead w.heap (redhttpRequestNew signature addr port input) = .ok none r →
      (BodyReadOnce (declaredBody r) (bodyRequest w signature addr port input app) ↔
        ¬ (FormTaken w.heap r ∧ UploadFollows w r app) ∧
          (FormTaken w.heap r ∨ UploadFollows w r app → askedBody r ≤ declaredBody r))) ∧
    ((∀ r, readHead w.heap (redhttpRequestNew signature addr port input) ≠ .ok none r) →
      freads (bodyRequest w signature addr port input app) = []) := by
  refine ⟨fun r hhead => ?_, bodyRequest_headless⟩
  obtain ⟨form, upload, hreads, hform, hnoForm, hupload, hnoUpload⟩ :=
    bodyRequest_reads app hhead
  rw [BodyReadOnce, hreads]
  by_cases hf : FormTaken w.heap r <;> by_cases hu : UploadFollows w r app
  · rw [hform hf, hupload hu]
    simp [hf, hu]
  · rw [hform hf, hnoUpload hu]
    simp [hf, hu]
  · rw [hnoForm hf, hupload hu]
    simp [hf, hu]
  · rw [hnoForm hf, hnoUpload hu]
    simp [hf, hu]

/-- A POST of a form to the default graph. -/
def formUpload : List UInt8 :=
  bytesOf "POST /data?default HTTP/1.0\r\nContent-Type: application/x-www-form-urlencoded\r\n" ++
    bytesOf "Content-Length: 3\r\n\r\na=b"

/-- The request that a head ends in, if it is not refused. -/
def headEnd (result : EStateM.Result Fault Request (Option ℕ)) : Option Request :=
  match result with
  | .ok none r => some r
  | _ => none

lemma eq_of_headEnd {result : EStateM.Result Fault Request (Option ℕ)} {r : Request}
    (h : headEnd result = some r) : result = .ok none r := by
  unfold headEnd at h
  split at h
  · rw [Option.some.inj h]
  · cases h

/-- Its three bytes are asked for twice. -/
theorem formUpload_read_twice :
    (∃ r, readHead memoryWorld.heap (redhttpRequestNew none default default formUpload) =
        .ok none r ∧ declaredBody r = 3 ∧
        ¬ BodyReadOnce (declaredBody r)
          (bodyRequest memoryWorld none default default formUpload emptyApp)) ∧
      freads (bodyRequest memoryWorld none default default formUpload emptyApp) = [3, 3] := by
  have hreads : freads (bodyRequest memoryWorld none default default formUpload emptyApp) =
      [3, 3] := by decide +kernel
  obtain ⟨r, hrun, hdeclared⟩ := (Option.any_eq_true _ _).mp
    (show (headEnd (readHead memoryWorld.heap (redhttpRequestNew none default default
      formUpload))).any (fun r => decide (declaredBody r = 3)) = true by decide +kernel)
  refine ⟨⟨r, eq_of_headEnd hrun, of_decide_eq_true hdeclared, ?_⟩, hreads⟩
  rw [BodyReadOnce, hreads]
  simp

end RedStore.Service
