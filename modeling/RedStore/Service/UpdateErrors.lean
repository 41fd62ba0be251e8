/-
What an update leaves behind when it is answered with an error.

A request that is refused has changed nothing, since the store is only read until the stream
of triples is there.  From then on there is no way back: the triples are stored or deleted
as the parser gets to them, and PUT has emptied its graph before the first of them.  A syntax
error is logged when the stream gets there, which the update sees at its end; so what is
answered with 500 has been done up to the error.
-/
import RedStore.Service.ErrorBuffer
import RedStore.Service.Uploads

namespace RedStore.Service
open CLib RedHttp

variable {T R σ : Type}

/-! ### Updates -/

/-- The requests that change the store: PUT and POST of the graph store, and POST of the three
pages. -/
inductive Update where
  | put | post | load | insert | delete

/-- The handler of an update. -/
def Update.handler (w : World T R σ) : Update → ServiceM σ (Option Response)
  | .put => handleDataPut w
  | .post => handleDataPost w
  | .load => handleLoadPost w
  | .insert => handleInsertPost w
  | .delete => handleDeletePost w

/-- A connection with a request for an update, and the connection that its handler gets. -/
inductive UpdateConn (c : Conn (App σ)) : Update → Conn (App σ) → Prop where
  | put {suffix : CString} (hmethod : c.request.method = some (CString.lit "PUT"))
      (hpath : c.request.path = some (CString.lit "/data" ++ suffix))
      (hglob : c.request.pathGlob = .null) : UpdateConn c .put (dataConn c suffix)
  | post {suffix : CString} (hmethod : c.request.method = some (CString.lit "POST"))
      (hpath : c.request.path = some (CString.lit "/data" ++ suffix))
      (hglob : c.request.pathGlob = .null) : UpdateConn c .post (dataConn c suffix)
  | load (hmethod : c.request.method = some (CString.lit "POST"))
      (hpath : c.request.path = some (CString.lit "/load")) :
      UpdateConn c .load (beforeHandlers c)
  | insert (hmethod : c.request.method = some (CString.lit "POST"))
      (hpath : c.request.path = some (CString.lit "/insert")) :
      UpdateConn c .insert (beforeHandlers c)
  | delete (hmethod : c.request.method = some (CString.lit "POST"))
      (hpath : c.request.path = some (CString.lit "/delete")) :
      UpdateConn c .delete (beforeHandlers c)

variable {w : World T R σ} {c c₀ c₁ c' : Conn (App σ)} {u : Update}

lemma UpdateConn.app (h : UpdateConn c u c₀) : c₀.app = (beforeHandlers c).app := by
  cases h <;> rfl

/-! ### What an update comes to -/

/-- The parser of a POST to `/load`. -/
def loadParser (r : Request) : CString :=
  (r.getArgument (CString.lit "parser")).getD (CString.lit "guess")

/-- The media type of the triples of a POST to `/insert` or `/delete`. -/
def contentParser (r : Request) : CString :=
  (r.getArgument (CString.lit "content-type")).getD defaultParseFormat

/-- A request for an update comes to the processing of a stream: with which graph, which stream
and how, and in which connection. -/
inductive Processes (w : World T R σ) (c : Conn (App σ)) :
    Update → Option Node → Stream T → StreamProcessor T σ → Conn (App σ) → Prop where
  | put {node : Node} {stream : Stream T} {c₁ : Conn (App σ)}
      (hnode : requestNode w c.request = some node)
      (hupload : uploadStream w (some node) (urlConn c) = .ok (.ok stream) c₁) :
      Processes w c .put (some node) stream (clearAndLoadStreamIntoGraph w) c₁
  | post {node : Node} {stream : Stream T} {c₁ : Conn (App σ)}
      (hnode : requestNode w c.request = some node)
      (hupload : uploadStream w (some node) (urlConn c) = .ok (.ok stream) c₁) :
      Processes w c .post (some node) stream (loadStreamIntoGraph w) c₁
  | postDefault {stream : Stream T} {c₁ : Conn (App σ)} (hdefault : hasDefault c.request = true)
      (hupload : uploadStream w none c = .ok (.ok stream) c₁) :
      Processes w c .post none stream (loadStreamIntoGraph w) c₁
  | postNew {node : Node} {stream : Stream T} {c₁ c₂ : Conn (App σ)}
      (hfound : findNewGraph w 10 c = .ok (.ok node) c₁)
      (hupload : uploadStream w (some node) c₁ = .ok (.ok stream) c₂) :
      Processes w c .post (some node) stream (loadStreamIntoNewGraph w) c₂
  | load {uriArg uri baseUri graphUri : CString} {node : Node} {stream : Stream T} {s : σ}
      {c₁ : Conn (App σ)} (huri : c.request.getArgument (CString.lit "uri") = some uriArg)
      (huris : loadUris w uriArg (c.request.getArgument (CString.lit "base-uri"))
        (c.request.getArgument (CString.lit "graph")) = .ok (uri, baseUri, graphUri))
      (hstream : (w.parserParse (loadParser c.request) uri baseUri s).value = some stream)
      (hnode : w.newNodeFromUri graphUri = some node) :
      Processes w c .load (some node) stream (loadStreamIntoGraph w) c₁
  | insert {content : CString} {graphNode : Option Node} {stream : Stream T} {c₁ : Conn (App σ)}
      (hcontent : c.request.getArgument (CString.lit "content") = some content)
      (hgraph : graphArgumentNode w (c.request.getArgument (CString.lit "graph")) = some graphNode)
      (hstream : bufferStream w content.bytes (contentParser c.request) graphNode c =
        .ok (.ok stream) c₁) :
      Processes w c .insert graphNode stream (loadStreamIntoGraph w) c₁
  | delete {content : CString} {graphNode : Option Node} {stream : Stream T} {c₁ : Conn (App σ)}
      (hcontent : c.request.getArgument (CString.lit "content") = some content)
      (hgraph : graphArgumentNode w (c.request.getArgument (CString.lit "graph")) = some graphNode)
      (hstream : bufferStream w content.bytes (contentParser c.request) graphNode c =
        .ok (.ok stream) c₁) :
      Processes w c .delete graphNode stream (deleteStreamFromGraph w) c₁

/-- A page that is given after reading alone. -/
def PagedAfterReads (w : World T R σ) (c : Conn (App σ)) (response : Response)
    (c' : Conn (App σ)) : Prop :=
  ∃ c₁ code message, Reads w c c₁ ∧
    redstorePageNewWithMessage w code message c₁ = .ok response c'

lemma Refused.paged {response : Response} (h : Refused w c response c') :
    PagedAfterReads w c response c' := by
  cases h with
  | page hreads _ h => exact ⟨_, _, _, hreads, h⟩

/-- A stream is processed after reading alone. -/
def ProcessedAfterReads (w : World T R σ) (c : Conn (App σ)) (u : Update) (response : Response)
    (c' : Conn (App σ)) : Prop :=
  ∃ graphNode stream streamProc c₁, Processes w c u graphNode stream streamProc c₁ ∧
    Reads w c c₁ ∧ streamProc stream graphNode c₁ = .ok response c'

section Cases

variable {response : Response} {answer : Option Response}

lemma handleDataPut_cases (h : handleDataPut w c = .ok (some response) c') :
    PagedAfterReads w c response c' ∨ ProcessedAfterReads w c .put response c' := by
  rcases withTarget_cases h with hrefused | ⟨-, -, hpage⟩ | ⟨-, -, node, hnode, hput⟩
  · exact Or.inl hrefused.paged
  · exact Or.inl ⟨c, _, _, .refl, hpage⟩
  · rcases parseDataFromRequestBody_cases Reads.refl.urlConn hput with
      hrefused | ⟨stream, c₁, hupload, hreads, hproc⟩
    · exact Or.inl hrefused.paged
    · exact Or.inr ⟨_, stream, _, c₁, .put hnode hupload, hreads, hproc⟩

lemma postToNewGraph_cases (h : postToNewGraph w c = .ok response c') :
    PagedAfterReads w c response c' ∨ ProcessedAfterReads w c .post response c' := by
  obtain ⟨found, c₁, hfound, hreads⟩ := findNewGraph_reads (w := w) (c := c) 10 .refl
  rw [postToNewGraph, bind_of_ok hfound] at h
  cases found with
  | error message => exact Or.inl ⟨c₁, _, _, hreads, h⟩
  | ok node =>
    rcases parseDataFromRequestBody_cases hreads h with
      hrefused | ⟨stream, c₂, hupload, hreads₂, hproc⟩
    · exact Or.inl hrefused.paged
    · exact Or.inr ⟨_, stream, _, c₂, .postNew hfound hupload, hreads₂, hproc⟩

lemma handleDataPost_cases (h : handleDataPost w c = .ok (some response) c') :
    PagedAfterReads w c response c' ∨ ProcessedAfterReads w c .post response c' := by
  cases hdefault : hasDefault c.request with
  | true =>
    cases hgraph : hasGraph c.request with
    | true =>
      rw [handleDataPost_of_both hgraph hdefault, map_some_eq_ok_iff] at h
      exact Or.inl ⟨c, _, _, .refl, h⟩
    | false =>
      rw [handleDataPost_of_default hgraph hdefault, map_some_eq_ok_iff] at h
      rcases parseDataFromRequestBody_cases .refl h with
        hrefused | ⟨stream, c₁, hupload, hreads, hproc⟩
      · exact Or.inl hrefused.paged
      · exact Or.inr ⟨_, stream, _, c₁, .postDefault hdefault hupload, hreads, hproc⟩
  | false =>
    cases hnamed : hasGraph c.request || hasPath c.request with
    | false =>
      obtain ⟨hgraph, hpath⟩ := Bool.or_eq_false_iff.mp hnamed
      rw [handleDataPost_of_neither hgraph hpath hdefault, map_some_eq_ok_iff] at h
      exact postToNewGraph_cases h
    | true =>
      rw [handleDataPost_of_named hnamed hdefault, map_some_eq_ok_iff, withGraphNode_apply] at h
      cases hnode : requestNode w c.request with
      | none =>
        rw [hnode] at h
        exact Or.inl ⟨_, _, _, Reads.refl.urlConn, h⟩
      | some node =>
        rw [hnode] at h
        rcases parseDataFromRequestBody_cases Reads.refl.urlConn h with
          hrefused | ⟨stream, c₁, hupload, hreads, hproc⟩
        · exact Or.inl hrefused.paged
        · exact Or.inr ⟨_, stream, _, c₁, .post hnode hupload, hreads, hproc⟩

/-- A POST to `/load` always answers: with a page, or by loading a stream. -/
lemma handleLoadPost_cases (h : handleLoadPost w c = .ok answer c') :
    ∃ response, answer = some response ∧
      (PagedAfterReads w c response c' ∨ ProcessedAfterReads w c .load response c') := by
  have hpaged : ∀ {c₁ : Conn (App σ)} {code message}, Reads w c c₁ →
      (some <$> redstorePageNewWithMessage w code message) c₁ = .ok answer c' →
      ∃ response, answer = some response ∧
        (PagedAfterReads w c response c' ∨ ProcessedAfterReads w c .load response c') := by
    intro c₁ code message hreads hpage
    obtain ⟨response, hmessage, rfl⟩ := map_eq_ok_iff.mp hpage
    exact ⟨response, rfl, Or.inl ⟨c₁, code, message, hreads, hmessage⟩⟩
  simp only [handleLoadPost, bind_apply, get_apply] at h
  cases huri : c.request.getArgument (CString.lit "uri") with
  | none =>
    simp only [huri] at h
    exact hpaged .refl h
  | some uriArg =>
    simp only [huri] at h
    cases huris : loadUris w uriArg (c.request.getArgument (CString.lit "base-uri"))
        (c.request.getArgument (CString.lit "graph")) with
    | error message =>
      simp only [huris] at h
      exact hpaged .refl h
    | ok uris =>
      obtain ⟨uri, baseUri, graphUri⟩ := uris
      simp only [huris, bind_apply, call_apply] at h
      have hparser := (Reads.refl (w := w) (c := c)).newParser (loadParser c.request)
      split at h
      · simp only [bind_apply, call_apply] at h
        have hparse := hparser.parse (loadParser c.request) uri baseUri
        cases hstream : (w.parserParse (loadParser c.request) uri baseUri
            (called c (w.newParser (loadParser c.request) c.app.storage)).app.storage).value with
        | none =>
          rw [loadParser] at hstream hparse
          simp only [hstream] at h
          exact hpaged hparse h
        | some stream =>
          have hstream' := hstream
          rw [loadParser] at hstream' hparse
          simp only [hstream'] at h
          cases hnode : w.newNodeFromUri graphUri with
          | none =>
            simp only [hnode] at h
            exact hpaged hparse h
          | some node =>
            simp only [hnode] at h
            obtain ⟨response, hload, rfl⟩ := map_eq_ok_iff.mp h
            exact ⟨response, rfl, Or.inr ⟨_, stream, _, _, .load huri huris hstream hnode, hparse,
              hload⟩⟩
      · exact hpaged hparser h

/-- A POST to `/insert` or `/delete` is refused, or its content is processed. -/
lemma handleContentPost_cases {streamProc : StreamProcessor T σ}
    (h : handleContentPost w streamProc c = .ok answer c') :
    ∃ response, answer = some response ∧ (Refused w c response c' ∨
      ∃ content graphNode stream c₁,
        c.request.getArgument (CString.lit "content") = some content ∧
        graphArgumentNode w (c.request.getArgument (CString.lit "graph")) = some graphNode ∧
        bufferStream w content.bytes (contentParser c.request) graphNode c =
          .ok (.ok stream) c₁ ∧
        Reads w c c₁ ∧ streamProc stream graphNode c₁ = .ok response c') := by
  simp only [handleContentPost, bind_apply, get_apply] at h
  cases hcontent : c.request.getArgument (CString.lit "content") with
  | none =>
    simp only [hcontent] at h
    obtain ⟨response, hpage, rfl⟩ := map_eq_ok_iff.mp h
    exact ⟨response, rfl, Or.inl (.page .refl (Or.inl rfl) hpage)⟩
  | some content =>
    simp only [hcontent] at h
    cases hgraph : graphArgumentNode w (c.request.getArgument (CString.lit "graph")) with
    | none =>
      simp only [hgraph] at h
      obtain ⟨response, hpage, rfl⟩ := map_eq_ok_iff.mp h
      exact ⟨response, rfl, Or.inl (.page .refl (Or.inr rfl) hpage)⟩
    | some graphNode =>
      simp only [hgraph] at h
      obtain ⟨response, hparse, rfl⟩ := map_eq_ok_iff.mp h
      obtain ⟨result, c₁, hstream, hreads, hstatus⟩ := bufferStream_reads (w := w) (c := c)
        content.bytes (contentParser c.request) graphNode .refl
      rw [parseDataFromBuffer_eq] at hparse
      change (bufferStream w content.bytes (contentParser c.request) graphNode >>= _) c = _
        at hparse
      rw [bind_of_ok hstream] at hparse
      refine ⟨response, rfl, ?_⟩
      cases result with
      | error failure => exact Or.inl (.page hreads (hstatus failure rfl) hparse)
      | ok stream =>
        exact Or.inr ⟨content, graphNode, stream, c₁, rfl, rfl, hstream, hreads, hparse⟩

/-- An update is answered with a page after reading alone, or by the processing of a stream. -/
lemma Update.cases (u : Update) (h : u.handler w c = .ok (some response) c') :
    PagedAfterReads w c response c' ∨ ProcessedAfterReads w c u response c' := by
  cases u with
  | put => exact handleDataPut_cases h
  | post => exact handleDataPost_cases h
  | load =>
    obtain ⟨_, hresponse, hcases⟩ := handleLoadPost_cases h
    obtain rfl := Option.some.inj hresponse
    exact hcases
  | insert =>
    obtain ⟨_, hresponse, hcases⟩ := handleContentPost_cases h
    obtain rfl := Option.some.inj hresponse
    refine hcases.imp Refused.paged ?_
    rintro ⟨content, graphNode, stream, c₁, hcontent, hgraph, hstream, hreads, hproc⟩
    exact ⟨graphNode, stream, _, c₁, .insert hcontent hgraph hstream, hreads, hproc⟩
  | delete =>
    obtain ⟨_, hresponse, hcases⟩ := handleContentPost_cases h
    obtain rfl := Option.some.inj hresponse
    refine hcases.imp Refused.paged ?_
    rintro ⟨content, graphNode, stream, c₁, hcontent, hgraph, hstream, hreads, hproc⟩
    exact ⟨graphNode, stream, _, c₁, .delete hcontent hgraph hstream, hreads, hproc⟩

lemma handleLoadPost_alwaysAnswers : AlwaysAnswers (handleLoadPost w) := by
  intro c c' h
  obtain ⟨_, hnone, -⟩ := handleLoadPost_cases h
  cases hnone

lemma handleContentPost_alwaysAnswers (streamProc : StreamProcessor T σ) :
    AlwaysAnswers (handleContentPost w streamProc) := by
  intro c c' h
  obtain ⟨_, hnone, -⟩ := handleContentPost_cases h
  cases hnone

end Cases

/-- A request for an update is what the handler of the update makes of it. -/
lemma UpdateConn.dispatch (h : UpdateConn c u c₀) : dispatchRequest w c = u.handler w c₀ := by
  cases h with
  | put hmethod hpath hglob => exact dispatchRequest_data (m := .put) hmethod hpath hglob
  | post hmethod hpath hglob => exact dispatchRequest_data (m := .post) hmethod hpath hglob
  | load hmethod hpath =>
    exact dispatchRequest_route (route (some "POST") (some "/load") (handleLoadPost w))
      ((requestHandlers w).take 17) ((requestHandlers w).drop 18) hmethod hpath
      rfl rfl rfl rfl rfl (by decide) handleLoadPost_alwaysAnswers
  | insert hmethod hpath =>
    exact dispatchRequest_route (route (some "POST") (some "/insert") (handleInsertPost w))
      ((requestHandlers w).take 12) ((requestHandlers w).drop 13) hmethod hpath
      rfl rfl rfl rfl rfl (by decide) (handleContentPost_alwaysAnswers _)
  | delete hmethod hpath =>
    exact dispatchRequest_route (route (some "POST") (some "/delete") (handleDeletePost w))
      ((requestHandlers w).take 14) ((requestHandlers w).drop 15) hmethod hpath
      rfl rfl rfl rfl rfl (by decide) (handleContentPost_alwaysAnswers _)

/-! ### What is left of the store -/

section Effects

variable {quads : σ → Set (T × Option Node)} {response : Response} {graphNode : Option Node}
  {stream : Stream T}

/-- What is relied on of Redland: reading changes nothing, and what is to be stored or removed
is.  A stream may log whatever it likes, wherever it likes. -/
structure ExactUpdates (w : World T R σ) (quads : σ → Set (T × Option Node)) : Prop where
  newParser : ∀ name s, quads (w.newParser name s).storage = quads s
  parseString : ∀ name data base s,
    quads (w.parserParseCountedString name data base s).storage = quads s
  parse : ∀ name uri base s, quads (w.parserParse name uri base s).storage = quads s
  contains : ∀ graph s, quads (w.containsContext graph s).storage = quads s
  stored : ∀ graph stream s, (w.contextAddStatements graph stream s).value = false
  add : ∀ graph stream s, quads (w.contextAddStatements graph stream s).storage =
    Dataset.add (quads s) graph (triplesOf stream)
  clear : ∀ graph s, quads (w.contextRemoveStatements graph s).storage =
    Dataset.clear (quads s) (some graph)
  remove : ∀ graph t s, quads (w.contextRemoveStatement graph (some t) s).storage =
    Dataset.remove (quads s) graph {t}
  removeNull : ∀ graph s, quads (w.contextRemoveStatement graph none s).storage = quads s

lemma Reads.quads_eq (hw : ExactUpdates w quads) (h : Reads w c c₁) :
    quads c₁.app.storage = quads c.app.storage := by
  induction h with
  | refl => rfl
  | request _ _ _ ih => exact ih
  | baseId _ _ ih => exact ih
  | contains _ graph ih => rw [called_storage, hw.contains, ih]
  | newParser _ name ih => rw [called_storage, hw.newParser, ih]
  | parseString _ name data base ih => rw [called_storage, hw.parseString, ih]
  | parse _ name uri base ih => rw [called_storage, hw.parse, ih]

lemma Reads.buffered (h : Reads w c c₁) (hbuffered : Buffered c.app) : Buffered c₁.app := by
  induction h with
  | refl => exact hbuffered
  | request _ _ _ ih => exact ih
  | baseId _ _ ih => exact ih
  | contains _ _ ih => exact ih.afterCall _
  | newParser _ _ ih => exact ih.afterCall _
  | parseString _ _ _ _ ih => exact ih.afterCall _
  | parse _ _ _ _ ih => exact ih.afterCall _

/-- What an update makes of the store, when its triples and its graph are known. -/
def Update.applied (u : Update) (graphNode : Option Node) (ts : Set T)
    (before : Set (T × Option Node)) : Set (T × Option Node) :=
  match u with
  | .put => Dataset.replace before graphNode ts
  | .delete => Dataset.remove before graphNode ts
  | _ => Dataset.add before graphNode ts

/-- An answer is no error, or it is 500 and something has been logged. -/
def ErrorLogged (response : Response) (c' : Conn (App σ)) : Prop :=
  response.status.code < 400 ∨ response.status = .internalServerError ∧ c'.app.logged ≠ []

lemma loadStreamIntoGraph_effect (hw : ExactUpdates w quads) (hbuffered : Buffered c.app)
    (h : loadStreamIntoGraph w stream graphNode c = .ok response c') :
    quads c'.app.storage = Dataset.add (quads c.app.storage) graphNode (triplesOf stream) ∧
      ErrorLogged response c' := by
  rw [loadStreamIntoGraph_eq] at h
  simp only [hw.stored, Bool.false_eq_true, if_false] at h
  have hcalled : Buffered (called c (w.contextAddStatements graphNode stream c.app.storage)).app :=
    hbuffered.afterCall _
  split at h
  · next hsome =>
    obtain ⟨hstatus, rfl⟩ := pageNewWithMessage_of_ok h
    refine ⟨?_, Or.inr ⟨hstatus, hcalled.isSome_iff.mp hsome⟩⟩
    rw [looked_storage, looked_storage, called_storage, hw.add]
  · obtain ⟨hstatus, rfl⟩ := pageNewWithMessage_of_ok h
    refine ⟨?_, Or.inl (by rw [hstatus]; decide)⟩
    rw [looked_storage, looked_storage, called_storage, hw.add]

lemma loadStreamIntoNewGraph_effect (hw : ExactUpdates w quads) (hbuffered : Buffered c.app)
    (h : loadStreamIntoNewGraph w stream graphNode c = .ok response c') :
    quads c'.app.storage = Dataset.add (quads c.app.storage) graphNode (triplesOf stream) ∧
      ErrorLogged response c' := by
  rw [loadStreamIntoNewGraph_eq] at h
  simp only [hw.stored, Bool.false_eq_true, if_false] at h
  have hcalled : Buffered (called c (w.contextAddStatements graphNode stream c.app.storage)).app :=
    hbuffered.afterCall _
  split at h
  · next hsome =>
    obtain ⟨hstatus, rfl⟩ := pageNewWithMessage_of_ok h
    refine ⟨?_, Or.inr ⟨hstatus, hcalled.isSome_iff.mp hsome⟩⟩
    rw [looked_storage, looked_storage, called_storage, hw.add]
  · obtain ⟨page, hpage, rfl⟩ := map_eq_ok_iff.mp h
    obtain ⟨hstatus, rfl⟩ := pageNewWithMessage_of_ok hpage
    refine ⟨?_, Or.inl ?_⟩
    · rw [looked_storage, looked_storage, called_storage, hw.add]
    · rw [redhttpResponseAddHeader, hstatus]
      decide

lemma clearAndLoadStreamIntoGraph_effect {node : Node} (hw : ExactUpdates w quads)
    (hbuffered : Buffered c.app)
    (h : clearAndLoadStreamIntoGraph w stream (some node) c = .ok response c') :
    quads c'.app.storage =
        Dataset.replace (quads c.app.storage) (some node) (triplesOf stream) ∧
      ErrorLogged response c' := by
  rw [clearAndLoad_eq] at h
  obtain ⟨hquads, herror⟩ := loadStreamIntoGraph_effect hw (hbuffered.afterCall _) h
  refine ⟨?_, herror⟩
  rw [hquads, called_storage, putRemoval, hw.clear, Dataset.replace]

lemma deleteStatements_effect (hw : ExactUpdates w quads) (graphNode : Option Node)
    (stream : Stream T) (count : ℕ) (c : Conn (App σ)) (hbuffered : Buffered c.app) :
    ∃ count' c', deleteStatements w graphNode stream count c = .ok count' c' ∧
      quads c'.app.storage =
        Dataset.remove (quads c.app.storage) graphNode (triplesOf stream) ∧
      Buffered c'.app := by
  induction stream generalizing count c with
  | nil => exact ⟨count, c, rfl, by simp [triplesOf, streamObjects], hbuffered⟩
  | cons event stream ih =>
    cases event with
    | log m =>
      obtain ⟨count', c', hrun, hquads, hbuffered'⟩ :=
        ih count { c with app := c.app.afterLog m } (hbuffered.afterLog m)
      refine ⟨count', c', ?_, hquads, hbuffered'⟩
      rw [deleteStatements, bind_of_ok (redlandLogHandler_apply m c), hrun]
    | object statement =>
      obtain ⟨count', c', hrun, hquads, hbuffered'⟩ :=
        ih (if (w.contextRemoveStatement graphNode statement c.app.storage).value then count
          else count + 1) (called c (w.contextRemoveStatement graphNode statement c.app.storage))
          (hbuffered.afterCall _)
      refine ⟨count', c', ?_, ?_, hbuffered'⟩
      · rw [deleteStatements, bind_of_ok (call_apply _ _), hrun]
      · rw [hquads, called_storage]
        cases statement with
        | none => rw [hw.removeNull]; rfl
        | some t =>
          rw [hw.remove, Dataset.remove_remove]
          congr 1
          ext t'
          simp [triplesOf, streamObjects]

lemma deleteStreamFromGraph_effect (hw : ExactUpdates w quads) (hbuffered : Buffered c.app)
    (h : deleteStreamFromGraph w stream graphNode c = .ok response c') :
    quads c'.app.storage = Dataset.remove (quads c.app.storage) graphNode (triplesOf stream) ∧
      ErrorLogged response c' := by
  obtain ⟨count, c₁, hrun, hquads, hbuffered₁⟩ :=
    deleteStatements_effect hw graphNode stream 0 c hbuffered
  rw [deleteStreamFromGraph, bind_of_ok hrun, bind_of_ok (inspect_apply c₁)] at h
  split at h
  · next hsome =>
    obtain ⟨hstatus, rfl⟩ := pageNewWithMessage_of_ok h
    exact ⟨hquads, Or.inr ⟨hstatus, hbuffered₁.isSome_iff.mp hsome⟩⟩
  · split at h
    · obtain ⟨hstatus, rfl⟩ := pageNewWithMessage_of_ok h
      exact ⟨hquads, Or.inl (by rw [hstatus]; decide)⟩
    · obtain ⟨hstatus, rfl⟩ := pageNewWithMessage_of_ok h
      exact ⟨hquads, Or.inl (by rw [hstatus]; decide)⟩

/-- The processing of a stream applies the update, and is answered with an error only if
something has been logged. -/
lemma Processes.effect (hw : ExactUpdates w quads) {streamProc : StreamProcessor T σ}
    (hproc : Processes w c₀ u graphNode stream streamProc c) (hbuffered : Buffered c.app)
    (h : streamProc stream graphNode c = .ok response c') :
    quads c'.app.storage = u.applied graphNode (triplesOf stream) (quads c.app.storage) ∧
      ErrorLogged response c' := by
  cases hproc with
  | put => exact clearAndLoadStreamIntoGraph_effect hw hbuffered h
  | post => exact loadStreamIntoGraph_effect hw hbuffered h
  | postDefault => exact loadStreamIntoGraph_effect hw hbuffered h
  | postNew => exact loadStreamIntoNewGraph_effect hw hbuffered h
  | load => exact loadStreamIntoGraph_effect hw hbuffered h
  | insert => exact loadStreamIntoGraph_effect hw hbuffered h
  | delete => exact deleteStreamFromGraph_effect hw hbuffered h

/-- An update that is answered with an error has changed nothing, unless something has been
logged: then the answer is 500, and the update has been applied with the triples of its
stream. -/
theorem update_answered_with_error (hw : ExactUpdates w quads) (hconn : UpdateConn c u c₀)
    (h : dispatchRequest w c = .ok (some response) c') (herror : 400 ≤ response.status.code) :
    quads c'.app.storage = quads c.app.storage ∨
      response.status = .internalServerError ∧ c'.app.logged ≠ [] ∧
        ∃ graphNode stream streamProc c₁, Processes w c₀ u graphNode stream streamProc c₁ ∧
          quads c'.app.storage =
            u.applied graphNode (triplesOf stream) (quads c.app.storage) := by
  have hstorage : c₀.app.storage = c.app.storage := by rw [hconn.app]; rfl
  have hbuffered : Buffered c₀.app := by
    rw [hconn.app]
    exact buffered_of_reset rfl rfl
  rw [hconn.dispatch] at h
  rcases u.cases h with ⟨c₁, code, message, hreads, hpage⟩ |
    ⟨graphNode, stream, streamProc, c₁, hproc, hreads, hrun⟩
  · left
    rw [(pageNewWithMessage_of_ok hpage).2, looked_storage, hreads.quads_eq hw, hstorage]
  · obtain ⟨hquads, hlogged⟩ := hproc.effect hw (hreads.buffered hbuffered) hrun
    rw [hreads.quads_eq hw, hstorage] at hquads
    rcases hlogged with hcode | ⟨hstatus, hlogged⟩
    · omega
    · exact Or.inr ⟨hstatus, hlogged, graphNode, stream, streamProc, c₁, hproc, hquads⟩

end Effects

/-! ### In memory -/

lemma memoryWorld_exactUpdates : ExactUpdates memoryWorld memoryQuads where
  newParser _ _ := rfl
  parseString _ _ _ _ := rfl
  parse _ _ _ _ := rfl
  contains _ _ := rfl
  stored _ _ _ := rfl
  add := memoryQuads_add
  clear := memoryQuads_clear
  remove := memoryQuads_removeContext
  removeNull _ _ := rfl

/-- A PUT of a triple and a syntax error. -/
def invalidPut : Conn (App MemoryStore) := ⟨putOf "c.\noops", occupiedApp⟩

lemma invalidPut_answered : ∃ response c',
    dispatchRequest memoryWorld invalidPut = .ok (some response) c' ∧
      response.status = .internalServerError ∧
      c'.app.storage = [(CString.lit "c.", some graphX)] :=
  outcome_eq_some_iff.mp (by decide +kernel)

theorem invalidPut_answered_with_error : ∃ response c',
    dispatchRequest memoryWorld invalidPut = .ok (some response) c' ∧
      (memoryQuads c'.app.storage = memoryQuads invalidPut.app.storage ∨
        response.status = .internalServerError ∧ c'.app.logged ≠ [] ∧
          ∃ graphNode stream streamProc c₁, Processes memoryWorld
              (dataConn invalidPut (CString.lit "/x")) .put graphNode stream streamProc c₁ ∧
            memoryQuads c'.app.storage =
              Update.put.applied graphNode (triplesOf stream)
                (memoryQuads invalidPut.app.storage)) := by
  obtain ⟨response, c', h, hstatus, -⟩ := invalidPut_answered
  have hconn : UpdateConn invalidPut .put (dataConn invalidPut (CString.lit "/x")) :=
    .put rfl (by decide) rfl
  refine ⟨response, c', h, update_answered_with_error memoryWorld_exactUpdates hconn h ?_⟩
  rw [hstatus]
  decide

/-- The PUT is answered with 500, and its graph has lost the triple that it had and has got the
one in front of the error. -/
theorem invalidPut_changes_store : ExactUpdates memoryWorld memoryQuads ∧
    UpdateConn invalidPut .put (dataConn invalidPut (CString.lit "/x")) ∧
    ∃ response c', dispatchRequest memoryWorld invalidPut = .ok (some response) c' ∧
      400 ≤ response.status.code ∧
      memoryQuads c'.app.storage ≠ memoryQuads invalidPut.app.storage := by
  refine ⟨memoryWorld_exactUpdates, .put rfl (by decide) rfl, ?_⟩
  obtain ⟨response, c', h, hstatus, hstorage⟩ := invalidPut_answered
  refine ⟨response, c', h, by rw [hstatus]; decide, fun heq => ?_⟩
  have hmem : (CString.lit "b.", some graphX) ∈ memoryQuads c'.app.storage := by
    rw [heq]
    exact List.mem_cons_self
  rw [hstorage] at hmem
  exact absurd hmem (by decide : (CString.lit "b.", some graphX) ∉
    [(CString.lit "c.", some graphX)])

end RedStore.Service
