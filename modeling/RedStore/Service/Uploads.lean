/-
An upload up to its stream of triples, executed.

Before the triples of an upload are processed, the store is only read: the body and its
parser are found, and the parser is given the data.  `uploadStream` is that part of
`parse_data_from_request_body`; it never faults, and it ends in the stream or in the page
that says why there is none.
-/
import RedStore.Service.BodyReaders
import RedStore.Service.Targets

namespace RedStore.Service
open CLib RedHttp

variable {T R σ : Type}

/-! ### Reading -/

/-- From one connection to another without a call that changes the store, and without a change
of the headers and the arguments of the request. -/
inductive Reads (w : World T R σ) (c : Conn (App σ)) : Conn (App σ) → Prop where
  | refl : Reads w c c
  | request {c₁ : Conn (App σ)} (h : Reads w c c₁) {r : Request}
      (hheaders : r.headers = c₁.request.headers)
      (harguments : r.arguments = c₁.request.arguments) : Reads w c { c₁ with request := r }
  | baseId {c₁ : Conn (App σ)} (h : Reads w c c₁) (baseId : ℕ) :
      Reads w c { c₁ with app := { c₁.app with baseId } }
  | contains {c₁ : Conn (App σ)} (h : Reads w c c₁) (graph : Node) :
      Reads w c (called c₁ (w.containsContext graph c₁.app.storage))
  | newParser {c₁ : Conn (App σ)} (h : Reads w c c₁) (name : CString) :
      Reads w c (called c₁ (w.newParser name c₁.app.storage))
  | parseString {c₁ : Conn (App σ)} (h : Reads w c c₁) (name : CString) (data : List UInt8)
      (base : Option CString) :
      Reads w c (called c₁ (w.parserParseCountedString name data base c₁.app.storage))
  | parse {c₁ : Conn (App σ)} (h : Reads w c c₁) (name uri base : CString) :
      Reads w c (called c₁ (w.parserParse name uri base c₁.app.storage))

variable {w : World T R σ} {c c₁ : Conn (App σ)}

lemma Reads.headers (h : Reads w c c₁) : c₁.request.headers = c.request.headers := by
  induction h with
  | refl => rfl
  | request _ hheaders _ ih => exact hheaders.trans ih
  | baseId _ _ ih => exact ih
  | contains _ _ ih => exact ih
  | newParser _ _ ih => exact ih
  | parseString _ _ _ _ ih => exact ih
  | parse _ _ _ _ ih => exact ih

lemma Reads.arguments (h : Reads w c c₁) : c₁.request.arguments = c.request.arguments := by
  induction h with
  | refl => rfl
  | request _ _ harguments ih => exact harguments.trans ih
  | baseId _ _ ih => exact ih
  | contains _ _ ih => exact ih
  | newParser _ _ ih => exact ih
  | parseString _ _ _ _ ih => exact ih
  | parse _ _ _ _ ih => exact ih

lemma Reads.urlConn (h : Reads w c c₁) : Reads w c (urlConn c₁) := h.request rfl rfl

/-! ### The stream of an upload -/

/-- The part of `parse_data_from_buffer` in front of the processing: the stream, or the status
and the message of a page. -/
def bufferStream (w : World T R σ) (buffer : List UInt8) (parserName : CString)
    (graphNode : Option Node) : ServiceM σ (Except (Status × String) (Stream T)) := do
  match chooseBaseUri w ((← get).request.getArgument (CString.lit "base-uri")) graphNode with
  | .error message => pure (.error (.internalServerError, message))
  | .ok baseUri =>
    if ← call (w.newParser parserName) then
      match ← call (w.parserParseCountedString parserName buffer baseUri) with
      | some stream => pure (.ok stream)
      | none => pure (.error (.internalServerError, "Failed to parse data."))
    else pure (.error (.internalServerError, "Failed to create parser."))

/-- The part of `parse_data_from_request_body` in front of the processing. -/
def uploadStream (w : World T R σ) (graphNode : Option Node) :
    ServiceM σ (Except (Status × String) (Stream T)) := do
  let r := (← get).request
  match ← onRequest (readDataBody w.heap (r.getHeader (CString.lit "Content-Length"))) with
  | .error (status, message) => pure (.error (status, message))
  | .ok data =>
    match w.parserGuessName (r.getHeader (CString.lit "Content-Type")) data with
    | none => pure (.error (.internalServerError, "Failed to guess parser type."))
    | some parserName => bufferStream w data parserName graphNode

/-- What is done behind either: the triples are processed, or a page is given. -/
def processUpload (w : World T R σ) (graphNode : Option Node) (streamProc : StreamProcessor T σ) :
    Except (Status × String) (Stream T) → ServiceM σ Response
  | .error (status, message) => redstorePageNewWithMessage w status (bytesOf message)
  | .ok stream => streamProc stream graphNode

lemma parseDataFromBuffer_eq (buffer : List UInt8) (parserName : CString)
    (graphNode : Option Node) (streamProc : StreamProcessor T σ) (c : Conn (App σ)) :
    parseDataFromBuffer w buffer parserName graphNode streamProc c =
      (bufferStream w buffer parserName graphNode >>= processUpload w graphNode streamProc) c := by
  simp only [parseDataFromBuffer, bufferStream, bind_apply, get_apply]
  cases chooseBaseUri w (c.request.getArgument (CString.lit "base-uri")) graphNode with
  | error message => rfl
  | ok baseUri =>
    simp only [bind_apply, call_apply]
    split
    · simp only [bind_apply, call_apply]
      cases (w.parserParseCountedString parserName buffer baseUri
        (called c (w.newParser parserName c.app.storage)).app.storage).value <;> rfl
    · rfl

lemma parseDataFromRequestBody_eq (graphNode : Option Node) (streamProc : StreamProcessor T σ)
    (c : Conn (App σ)) :
    parseDataFromRequestBody w graphNode streamProc c =
      (uploadStream w graphNode >>= processUpload w graphNode streamProc) c := by
  simp only [parseDataFromRequestBody, uploadStream, bind_apply, get_apply]
  cases onRequest (readDataBody w.heap (c.request.getHeader (CString.lit "Content-Length"))) c with
  | error e c' => rfl
  | ok data c' =>
    cases data with
    | error failure => rfl
    | ok data =>
      dsimp only
      cases w.parserGuessName (c.request.getHeader (CString.lit "Content-Type")) data with
      | none => rfl
      | some parserName => exact parseDataFromBuffer_eq data parserName graphNode streamProc c'

/-- The pages of a refused upload. -/
def RefusalStatus (result : Except (Status × String) (Stream T)) : Prop :=
  ∀ failure, result = .error failure →
    failure.1 = .badRequest ∨ failure.1 = .internalServerError

lemma bufferStream_reads (buffer : List UInt8) (parserName : CString) (graphNode : Option Node)
    (h : Reads w c c₁) :
    ∃ result c₂, bufferStream w buffer parserName graphNode c₁ = .ok result c₂ ∧ Reads w c c₂ ∧
      RefusalStatus result := by
  have hrefused : ∀ message, RefusalStatus
      (.error (.internalServerError, message) : Except (Status × String) (Stream T)) := by
    rintro message _ ⟨⟩
    exact Or.inr rfl
  simp only [bufferStream, bind_apply, get_apply]
  cases chooseBaseUri w (c₁.request.getArgument (CString.lit "base-uri")) graphNode with
  | error message => exact ⟨_, c₁, rfl, h, hrefused _⟩
  | ok baseUri =>
    have hparser := h.newParser parserName
    simp only [bind_apply, call_apply]
    split
    · have hparse := hparser.parseString parserName buffer baseUri
      simp only [bind_apply, call_apply]
      cases (w.parserParseCountedString parserName buffer baseUri
        (called c₁ (w.newParser parserName c₁.app.storage)).app.storage).value with
      | some stream => exact ⟨_, _, rfl, hparse, by rintro _ ⟨⟩⟩
      | none => exact ⟨_, _, rfl, hparse, hrefused _⟩
    · exact ⟨_, _, rfl, hparser, hrefused _⟩

lemma readDataBody_reads (h : Reads w c c₁) :
    ∃ data c₂, onRequest (readDataBody w.heap
        (c₁.request.getHeader (CString.lit "Content-Length"))) c₁ = .ok data c₂ ∧ Reads w c c₂ ∧
      ∀ failure, data = .error failure →
        failure.1 = .badRequest ∨ failure.1 = .internalServerError := by
  cases hlength : c₁.request.getHeader (CString.lit "Content-Length") with
  | none =>
    refine ⟨_, c₁, rfl, h, ?_⟩
    rintro _ ⟨⟩
    exact Or.inl rfl
  | some contentLength =>
    simp only [onRequest, readDataBody_eq (r := c₁.request)
      (rfl : sizeOfInt (atoi contentLength) = _)]
    generalize sizeOfInt (atoi contentLength) = length
    split_ifs with hzero hm
    · refine ⟨_, c₁, rfl, h, ?_⟩
      rintro _ ⟨⟩
      exact Or.inl rfl
    · refine ⟨_, _, rfl, h.request rfl rfl, ?_⟩
      rintro _ ⟨⟩
      exact Or.inr rfl
    · refine ⟨_, _, rfl, h.request rfl rfl, ?_⟩
      rintro _ ⟨⟩
    · refine ⟨_, _, rfl, h.request rfl rfl, ?_⟩
      rintro _ ⟨⟩
      exact Or.inr rfl

/-- Finding the stream of an upload never faults and only reads. -/
lemma uploadStream_reads (graphNode : Option Node) (h : Reads w c c₁) :
    ∃ result c₂, uploadStream w graphNode c₁ = .ok result c₂ ∧ Reads w c c₂ ∧
      RefusalStatus result := by
  obtain ⟨data, c₂, hbody, hreads, hstatus⟩ := readDataBody_reads h
  simp only [uploadStream, bind_apply, get_apply, hbody]
  cases data with
  | error failure =>
    refine ⟨_, c₂, rfl, hreads, ?_⟩
    rintro _ ⟨⟩
    exact hstatus failure rfl
  | ok data =>
    dsimp only
    cases w.parserGuessName (c₁.request.getHeader (CString.lit "Content-Type")) data with
    | none =>
      refine ⟨_, c₂, rfl, hreads, ?_⟩
      rintro _ ⟨⟩
      exact Or.inr rfl
    | some parserName => exact bufferStream_reads data parserName graphNode hreads

/-! ### PUT -/

/-- The removal of the old triples by a PUT. -/
def putRemoval (w : World T R σ) (node : Node) (c : Conn (App σ)) : Answer σ Bool :=
  w.contextRemoveStatements node c.app.storage

lemma clearAndLoad_eq (node : Node) (stream : Stream T) (c : Conn (App σ)) :
    clearAndLoadStreamIntoGraph w stream (some node) c =
      loadStreamIntoGraph w stream (some node) (called c (putRemoval w node c)) := by
  have hdiscard : (discard (call (w.contextRemoveStatements node)) : ServiceM σ PUnit) c =
      .ok ⟨⟩ (called c (putRemoval w node c)) := by
    change (call (w.contextRemoveStatements node) >>= fun _ => pure PUnit.unit) c = _
    rw [bind_of_ok (call_apply _ _)]
    rfl
  rw [clearAndLoadStreamIntoGraph]
  exact bind_of_ok hdiscard _

/-! ### A graph of its own -/

/-- The number that the next identifier is made of. -/
def currentBaseId (w : World T R σ) (app : App σ) : ℕ :=
  if app.baseId = 0 then w.random % longRange else app.baseId

/-- A connection after an identifier has been made. -/
def genidConn (w : World T R σ) (c : Conn (App σ)) : Conn (App σ) :=
  { c with app := { c.app with baseId := (currentBaseId w c.app + 1) % longRange } }

/-- The graph that the next identifier is for. -/
def nextGraph (w : World T R σ) (c : Conn (App σ)) : Option Node :=
  graphNodeFor w c.request.currentUrl
    (some (CString.lit "/data/" ++ genidText (currentBaseId w c.app)))

/-- One round of the loop of `post_to_new_graph`. -/
lemma findNewGraph_succ (attempts : ℕ) (c : Conn (App σ)) :
    findNewGraph w (attempts + 1) c = match nextGraph w c with
      | none => .ok (.error "Failed to create node for graph identifier.")
          (genidConn w (urlConn c))
      | some graphNode =>
        let answer := w.containsContext graphNode c.app.storage
        if answer.value then findNewGraph w attempts (called (genidConn w (urlConn c)) answer)
        else .ok (.ok graphNode) (called (genidConn w (urlConn c)) answer) := by
  have hnew : newGraphNode w c.request.currentUrl ⟨c.request.withUrl, c.app⟩ =
      .ok (nextGraph w c) (genidConn w (urlConn c)) := by
    simp only [newGraphNode, redstoreGenid, bind_apply, get_apply, modifyApp, modify_apply,
      pure_apply, nextGraph, genidConn, currentBaseId, urlConn_app]
    rfl
  simp only [findNewGraph, bind_apply, onRequest, redhttpRequestGetUrl_apply, hnew]
  cases nextGraph w c with
  | none => rfl
  | some graphNode =>
    have hstorage : (genidConn w (urlConn c)).app.storage = c.app.storage := rfl
    simp only [bind_apply, call_apply, hstorage]
    split <;> rfl

lemma findNewGraph_reads (attempts : ℕ) (h : Reads w c c₁) :
    ∃ result c₂, findNewGraph w attempts c₁ = .ok result c₂ ∧ Reads w c c₂ := by
  induction attempts generalizing c₁ with
  | zero => exact ⟨_, c₁, rfl, h⟩
  | succ attempts ih =>
    rw [findNewGraph_succ]
    have hgenid : Reads w c (genidConn w (urlConn c₁)) := h.urlConn.baseId _
    cases nextGraph w c₁ with
    | none => exact ⟨_, _, rfl, hgenid⟩
    | some graphNode =>
      dsimp only
      split
      · exact ih (hgenid.contains graphNode)
      · exact ⟨_, _, rfl, hgenid.contains graphNode⟩

/-! ### What an answer comes from -/

/-- A page that refuses a request, after reading alone. -/
inductive Refused (w : World T R σ) (c : Conn (App σ)) (response : Response)
    (c' : Conn (App σ)) : Prop where
  | page {c₁ : Conn (App σ)} (hreads : Reads w c c₁) {code : Status} {message : List UInt8}
      (hcode : code = .badRequest ∨ code = .internalServerError)
      (h : redstorePageNewWithMessage w code message c₁ = .ok response c')

lemma Refused.status {response : Response} {c' : Conn (App σ)} (h : Refused w c response c') :
    response.status = .badRequest ∨ response.status = .internalServerError := by
  cases h with
  | page hreads hcode h =>
    rw [(pageNewWithMessage_of_ok h).1]
    exact hcode

/-- A request for a target is refused, or its handler works on the default graph or on the
graph that the request names. -/
lemma withTarget_cases {onDefault : ServiceM σ Response} {onGraph : Node → ServiceM σ Response}
    {response : Response} {c' : Conn (App σ)}
    (h : withTarget w onDefault onGraph c = .ok (some response) c') :
    Refused w c response c' ∨
      (hasGraph c.request = false ∧ hasDefault c.request = true ∧
        onDefault c = .ok response c') ∨
      ((hasGraph c.request || hasPath c.request) = true ∧ hasDefault c.request = false ∧
        ∃ node, requestNode w c.request = some node ∧
          onGraph node (urlConn c) = .ok response c') := by
  cases hdefault : hasDefault c.request with
  | true =>
    cases hgraph : hasGraph c.request with
    | true =>
      rw [withTarget_of_both hgraph hdefault, map_some_eq_ok_iff] at h
      exact Or.inl (.page .refl (Or.inl rfl) h)
    | false =>
      rw [withTarget_of_default hgraph hdefault, map_some_eq_ok_iff] at h
      exact Or.inr (Or.inl ⟨rfl, rfl, h⟩)
  | false =>
    cases hnamed : hasGraph c.request || hasPath c.request with
    | false =>
      obtain ⟨hgraph, hpath⟩ := Bool.or_eq_false_iff.mp hnamed
      rw [withTarget_of_neither hgraph hpath hdefault, map_some_eq_ok_iff] at h
      exact Or.inl (.page .refl (Or.inl rfl) h)
    | true =>
      rw [withTarget_of_named hnamed hdefault, map_some_eq_ok_iff, withGraphNode_apply] at h
      cases hnode : requestNode w c.request with
      | none =>
        rw [hnode] at h
        exact Or.inl (.page Reads.refl.urlConn (Or.inr rfl) h)
      | some node =>
        rw [hnode] at h
        exact Or.inr (Or.inr ⟨rfl, rfl, node, rfl, h⟩)

/-- An upload is refused, or its triples are processed. -/
lemma parseDataFromRequestBody_cases {graphNode : Option Node} {streamProc : StreamProcessor T σ}
    {response : Response} {c' : Conn (App σ)} (hreads : Reads w c c₁)
    (h : parseDataFromRequestBody w graphNode streamProc c₁ = .ok response c') :
    Refused w c response c' ∨ ∃ stream c₂, uploadStream w graphNode c₁ = .ok (.ok stream) c₂ ∧
      Reads w c c₂ ∧ streamProc stream graphNode c₂ = .ok response c' := by
  obtain ⟨result, c₂, hupload, hreads₂, hstatus⟩ := uploadStream_reads graphNode hreads
  rw [parseDataFromRequestBody_eq, bind_of_ok hupload] at h
  cases result with
  | error failure => exact Or.inl (.page hreads₂ (hstatus failure rfl) h)
  | ok stream => exact Or.inr ⟨stream, c₂, hupload, hreads₂, h⟩

end RedStore.Service
